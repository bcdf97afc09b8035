import Pushdown.Proofs.Compilation
import Pushdown.Proofs.Lexemes
import Pushdown.Session.Command

/-! Programs typed at the prompt. A command is asked for by a colon and its name, and so begins a label in
front of a statement. A line that asks for no command is run as it stands; a program asks for one only by
the label of its first statement, and not at all behind the command for running. -/
namespace Pushdown

namespace Command

variable {cs rest : List Char}

/-- The names of the commands, which are written behind a colon. -/
def names : List String := ["tokens", "parse", "tree", "code", "symbols", "grammar", "run"]

/-- A text that asks for a command. For a tree a symbol has to follow the name. -/
def Asks (cs : List Char) : Prop :=
  ∃ name ∈ names, ∃ rest, cs = ':' :: (name.toList ++ rest) ∧
    (name = "tree" → (Text.nextWord rest).isSome)

theorem after?_eq_some_iff {word : String} : after? word cs = some rest ↔ cs = word.toList ++ rest := by
  unfold after?
  constructor
  · intro found
    split at found
    · rename_i stands
      obtain ⟨more, rfl⟩ := List.isPrefixOf_iff_prefix.mp stands
      cases found
      rw [List.drop_left]
    · cases found
  · rintro rfl
    rw [if_pos (List.isPrefixOf_iff_prefix.mpr (List.prefix_append ..)), List.drop_left]

theorem readFrom_of_not_asks (none : ¬ Asks cs) : readFrom cs = (.run (sourceOf cs), []) := by
  have absent (word name : String) (spelled : word.toList = ':' :: name.toList) (member : name ∈ names)
      (other : name ≠ "tree") : after? word cs = Option.none := by
    refine Option.eq_none_iff_forall_ne_some.mpr fun rest found => none ?_
    rw [after?_eq_some_iff, spelled] at found
    exact ⟨name, member, rest, found, fun same => absurd same other⟩
  have symbol : (after? ":tree" cs).bind Text.nextWord = Option.none := by
    refine Option.eq_none_iff_forall_ne_some.mpr fun word found => none ?_
    obtain ⟨rest, stands, next⟩ := Option.bind_eq_some_iff.mp found
    exact ⟨"tree", by decide, rest, after?_eq_some_iff.mp stands, fun _ => by simp [next]⟩
  unfold readFrom
  rw [symbol, absent ":tokens" "tokens" rfl (by decide) (by decide),
    absent ":parse" "parse" rfl (by decide) (by decide), absent ":code" "code" rfl (by decide) (by decide),
    absent ":symbols" "symbols" rfl (by decide) (by decide),
    absent ":grammar" "grammar" rfl (by decide) (by decide), absent ":run" "run" rfl (by decide) (by decide)]
  rfl

/-- A command that is asked for is not to run the whole text. -/
theorem readFrom_of_asks (asks : Asks cs) : (readFrom cs).1 ≠ .run (sourceOf cs) := by
  obtain ⟨name, member, rest, rfl, symbol⟩ := asks
  simp only [names, List.mem_cons, List.not_mem_nil, or_false] at member
  rcases member with rfl | rfl | rfl | rfl | rfl | rfl | rfl
  · show Command.tokens _ ≠ _
    nofun
  · show Command.parse _ ≠ _
    nofun
  · obtain ⟨⟨word, more⟩, next⟩ := Option.isSome_iff_exists.mp (symbol rfl)
    have behind : after? ":tree" (':' :: ("tree".toList ++ rest)) = some rest := after?_eq_some_iff.mpr rfl
    unfold readFrom
    rw [behind, Option.bind_some, next]
    show Command.tree _ _ ≠ _
    nofun
  · show Command.code _ ≠ _
    nofun
  · show Command.symbols _ ≠ _
    nofun
  · show Command.grammar ≠ _
    nofun
  · -- The word itself is lost, and it has characters that are not blank.
    show Command.run (sourceOf rest) ≠ _
    intro same
    have trimmed := String.ofList_injective (Command.run.inj same)
    have shown := congrArg (List.filter (!Text.isBlank ·)) trimmed
    rw [Text.filter_trim, Text.filter_trim] at shown
    have longer : (':' :: ("run".toList ++ rest)).filter (!Text.isBlank ·) =
      ":run".toList ++ rest.filter (!Text.isBlank ·) := rfl
    have lengths := congrArg List.length (shown.trans longer)
    rw [List.length_append] at lengths
    exact absurd lengths (Nat.ne_of_lt (Nat.lt_add_of_pos_left (by decide)))

theorem sourceOf_dropWhile (line : String) :
    sourceOf (line.toList.dropWhile Text.isGap) = Text.strip line := by
  rw [sourceOf, Text.trim_dropWhile_isGap, Text.strip]

theorem read_eq_run_iff (line : String) :
    read line = .ok (.run (Text.strip line)) ↔ ¬ Asks (line.toList.dropWhile Text.isGap) := by
  rw [← sourceOf_dropWhile]
  constructor
  · intro run asks
    have other := readFrom_of_asks asks
    unfold read at run
    dsimp only at run
    split at run
    · exact other (Except.ok.inj run)
    · cases run
  · intro none
    rw [read, readFrom_of_not_asks none]
    rfl

theorem read_behind_run (line : String) : read (":run " ++ line) = .ok (.run (Text.strip line)) := by
  have typed : (":run " ++ line).toList.dropWhile Text.isGap = ":run".toList ++ ' ' :: line.toList := by
    rw [String.toList_append]
    rfl
  have named : readFrom (":run".toList ++ ' ' :: line.toList) = (.run (sourceOf (' ' :: line.toList)), []) :=
    rfl
  rw [read, typed, named]
  rfl

end Command

namespace Token

variable {offset : Nat} {cs rest : List Char} {tokens : List Token}

theorem scanFrom_dropWhile_isGap (offset : Nat) (cs : List Char) :
    ∃ offset', scanFrom offset cs = scanFrom offset' (cs.dropWhile Text.isGap) := by
  induction cs generalizing offset with
  | nil => exact ⟨offset, rfl⟩
  | cons c cs ih =>
    rw [List.dropWhile_cons]
    split
    · rename_i gap
      have silent : c.isAlphanum = false ∧ isPunctuation c = false := by
        rcases Text.isGap_iff.mp gap with rfl | rfl | rfl | rfl <;> decide
      rw [scanFrom, silent.1, silent.2]
      exact ih _
    · exact ⟨offset, rfl⟩

theorem scanFrom_mark {c : Char} (mark : isPunctuation c = true)
    (scanned : scanFrom offset (c :: rest) = .ok tokens) :
    ∃ later, scanFrom (offset + 1) rest = .ok later ∧
      tokens = symbol (String.singleton c) :: later := by
  rw [scanFrom, isAlphanum_of_isPunctuation mark, mark] at scanned
  exact map_cons_eq_ok scanned

theorem scanFrom_word {word : List Char} (nonempty : word ≠ [])
    (letters : ∀ c ∈ word, c.isAlphanum = true)
    (scanned : scanFrom offset (word ++ rest) = .ok tokens) :
    ∃ t later, Denotes (word ++ rest.takeWhile Char.isAlphanum) t ∧ tokens = t :: later := by
  obtain ⟨c, word, rfl⟩ := List.exists_cons_of_ne_nil nonempty
  rw [List.forall_mem_cons] at letters
  rw [List.cons_append, scanFrom, if_pos letters.1] at scanned
  dsimp only at scanned
  rw [List.takeWhile_append_of_pos letters.2, ← List.cons_append] at scanned
  split at scanned
  · cases scanned
  · rename_i t made
    obtain ⟨later, _, rfl⟩ := map_cons_eq_ok scanned
    exact ⟨t, later, (ofRun_eq_some_iff (List.cons_ne_nil _ _)).mp made, rfl⟩

/-- A text that asks for a command begins, for a scan, with a colon and an identifier. -/
theorem scan_of_asks {text : String} (asks : Command.Asks (text.toList.dropWhile Text.isGap))
    (scanned : scan text = .ok tokens) :
    ∃ x later, tokens = symbol ":" :: identifier x :: later ∧
      ∃ name ∈ Command.names, name.toList <+: x.toList := by
  have spelled : ∀ name ∈ Command.names, name.toList ≠ [] ∧ name.toList.all Char.isAlphanum = true ∧
      name.toList.all Char.isDigit = false ∧ ∀ word ∈ reserved, ¬ name.toList <+: word.toList := by
    decide
  obtain ⟨name, member, rest, typed, _⟩ := asks
  obtain ⟨nonempty, letters, mixed, free⟩ := spelled name member
  obtain ⟨offset, skipped⟩ := scanFrom_dropWhile_isGap 0 text.toList
  have whole := scan_eq_ok scanned
  rw [skipped, typed] at whole
  obtain ⟨behind, read, rfl⟩ := scanFrom_mark (by decide) whole
  obtain ⟨t, later, denotes, rfl⟩ := scanFrom_word nonempty (List.all_eq_true.mp letters) read
  cases denotes with
  | integer digits =>
    have all := List.all_eq_true.mpr fun c member => digits c (List.mem_append_left _ member)
    rw [mixed] at all
    cases all
  | reserved kept =>
    refine absurd ?_ (free _ kept)
    rw [String.toList_ofList]
    exact List.prefix_append ..
  | identifier =>
    refine ⟨_, later, rfl, name, member, ?_⟩
    rw [String.toList_ofList]
    exact List.prefix_append ..

end Token

open Token

theorem Expr.Reads.place_head {ts : List Token} {p : Expr} (reads : p.Reads .place ts) :
    ∃ x us, ts = identifier x :: us := by
  cases reads with
  | name x => exact ⟨x, [], rfl⟩
  | element x => exact ⟨x, _, rfl⟩

theorem Statement.Reads.bare_head {ts : List Token} {ss : List Statement}
    (reads : Statement.Reads .bare ts ss) : ∃ t us, ts = t :: us ∧ t.name ≠ ":" := by
  cases reads with
  | assign place _ =>
    obtain ⟨x, us, rfl⟩ := place.place_head
    exact ⟨_, _, rfl, (by decide : "$id" ≠ ":")⟩
  | put | get | stop | goto | branch | group => exact ⟨_, _, rfl, by decide⟩

/-- A statement that begins with a colon has a label. -/
theorem Statement.Reads.labelled_of_colon {ts : List Token} {s : Statement}
    (reads : Statement.Reads .single (symbol ":" :: ts) [s]) :
    ∃ x us body, ts = identifier x :: us ∧ s = .labelled x body := by
  cases reads with
  | plain bare =>
    obtain ⟨t, us, same, other⟩ := bare.bare_head
    exact absurd (congrArg Token.name (List.cons.inj same).1).symm other
  | labelled x => exact ⟨x, _, _, rfl, rfl⟩

theorem Statement.Reads.single_ne_nil {ts : List Token} {s : Statement}
    (reads : Statement.Reads .single ts [s]) : ts ≠ [] := by
  cases reads with
  | plain bare =>
    obtain ⟨t, us, rfl, _⟩ := bare.bare_head
    nofun
  | labelled => nofun

/-- A program that begins with a colon declares nothing, and its first statement has a label. -/
theorem Source.Reads.labelled_of_colon {ts : List Token} {source : Source}
    (reads : Source.Reads (symbol ":" :: ts) source) :
    ∃ x us body later, ts = identifier x :: us ∧ source = ⟨[], .labelled x body :: later⟩ := by
  generalize whole : symbol ":" :: ts = all at reads
  cases reads with
  | declare => exact absurd (congrArg Token.name (List.cons.inj whole).1) (by decide : ":" ≠ "$declare")
  | statements sequence =>
    cases sequence with
    | nil => cases whole
    | cons single rest =>
      obtain ⟨t, us, rfl⟩ := List.exists_cons_of_ne_nil single.single_ne_nil
      cases whole
      obtain ⟨x, us, body, rfl, rfl⟩ := single.labelled_of_colon
      exact ⟨x, _, body, _, rfl, rfl⟩

/-- A text that asks for a command writes a program by the label in front of its first statement. -/
theorem Source.WrittenBy.labelled_of_asks {source : Source} {text : String} (written : source.WrittenBy text)
    (asks : Command.Asks (text.toList.dropWhile Text.isGap)) :
    ∃ x body later, source = ⟨[], .labelled x body :: later⟩ ∧
      ∃ name ∈ Command.names, name.toList <+: x.toList := by
  obtain ⟨tokens, scanned, reads⟩ := written
  obtain ⟨x, more, rfl, named⟩ := scan_of_asks asks scanned
  have begun : upToEnd (symbol ":" :: identifier x :: more) =
      symbol ":" :: identifier x :: upToEnd more := rfl
  rw [begun] at reads
  obtain ⟨y, us, body, later, same, rfl⟩ := reads.labelled_of_colon
  cases same
  exact ⟨x, body, later, rfl, named⟩

/-- A program that compiles is run as it is typed if, and only if, the line asks for no command. One that
does has a label in front of its first statement that begins with the name of a command. Behind the command
for running every program is run. -/
theorem typed_program_runs_unless_asking {line : String} {budget : Nat} {emission : Emission}
    (compiled : Compiler.compile Grammar.programScheme line budget = some (.ok emission)) :
    (Command.read line = .ok (.run (Text.strip line)) ↔
      ¬ Command.Asks (line.toList.dropWhile Text.isGap)) ∧
    (Command.Asks (line.toList.dropWhile Text.isGap) →
      (∃ source : Source, source.WrittenBy line) ∧
      ∀ source : Source, source.WrittenBy line →
        ∃ x body later, source = ⟨[], .labelled x body :: later⟩ ∧
          ∃ name ∈ Command.names, name.toList <+: x.toList) ∧
    Command.read (":run " ++ line) = .ok (.run (Text.strip line)) := by
  refine ⟨Command.read_eq_run_iff line, fun asks => ?_, Command.read_behind_run line⟩
  exact ⟨compile_written compiled, fun source written => written.labelled_of_asks asks⟩

/-- The label only begins like a command, and what is run is another text. -/
theorem typed_program_runs_unless_asking_runner :
    ∃ emission, Compiler.compile Grammar.programScheme ":runner: put 7;" 100 = some (.ok emission) ∧
      Command.read ":runner: put 7;" = .ok (.run "ner: put 7;") ∧
      (∃ source : Source, source.WrittenBy ":runner: put 7;" ∧
        ∃ x body later, source = ⟨[], .labelled x body :: later⟩ ∧
          ∃ name ∈ Command.names, name.toList <+: x.toList) ∧
      Command.read ":run :runner: put 7;" = .ok (.run ":runner: put 7;") := by
  obtain ⟨emission, compiled, _⟩ := exists_emission (p := fun _ => True) ":runner: put 7;" 100
    (by decide +kernel)
  have asks : Command.Asks (":runner: put 7;".toList.dropWhile Text.isGap) :=
    ⟨"run", by decide, "ner: put 7;".toList, rfl, by decide⟩
  obtain ⟨_, labels, behind⟩ := typed_program_runs_unless_asking compiled
  obtain ⟨⟨source, written⟩, labelled⟩ := labels asks
  exact ⟨emission, compiled, by decide +kernel, ⟨source, written, labelled source written⟩, behind⟩

/-- A program on one line whose label is named like a command: the line asks for the code of another
text. -/
theorem labelled_program_not_run :
    (∃ emission, Compiler.compile Grammar.programScheme ":code: put 7;" 100 = some (.ok emission)) ∧
      '\n' ∉ ":code: put 7;".toList ∧ Text.strip ":code: put 7;" = ":code: put 7;" ∧
      Command.read ":code: put 7;" = .ok (.code ": put 7;") ∧
      Command.read ":code: put 7;" ≠ .ok (.run (Text.strip ":code: put 7;")) := by
  obtain ⟨emission, compiled, _⟩ := exists_emission (p := fun _ => True) ":code: put 7;" 100
    (by decide +kernel)
  have read : Command.read ":code: put 7;" = .ok (.code ": put 7;") := by decide +kernel
  refine ⟨⟨emission, compiled⟩, by decide, by decide +kernel, read, ?_⟩
  rw [read]
  nofun

end Pushdown
