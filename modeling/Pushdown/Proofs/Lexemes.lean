import Mathlib.Algebra.Group.Nat.Defs
import Pushdown.Proofs.Scanning
import Pushdown.Proofs.Words

/-! The lexemes of a text, told by their places. A lexeme is a maximal run of ASCII letters and digits or
a single punctuation character. Scanning lists the tokens of all lexemes in the order of their places, and
fails exactly if one of the runs writes an integer that is too large. -/
namespace Pushdown

namespace Numeral

variable {run : List Char}

/-- Digits without a sign write the number that they have as decimal digits. -/
theorem readInt_digits (nonempty : run ≠ []) (digits : ∀ c ∈ run, c.isDigit = true) :
    readInt run = some (Nat.ofDigitChars 10 run 0 : Int) := by
  have unsigned {sign : Char} {rest : List Char} (other : sign.isDigit = false) :
      run ≠ sign :: rest := by
    rintro rfl
    exact absurd (digits sign List.mem_cons_self) (by simp [other])
  have plain : readNat run = some (Nat.ofDigitChars 10 run 0) := by
    have all : run.any (!·.isDigit) = false := by simpa using digits
    rw [readNat, List.isEmpty_eq_false_iff.mpr nonempty, all]
    rfl
  have positive : readUnsigned run = readNat run := by
    unfold readUnsigned
    split
    · exact absurd rfl (unsigned (by decide))
    · rfl
  unfold readInt
  split
  · exact absurd rfl (unsigned (by decide))
  · rw [positive, plain]
    rfl

theorem readInt64_eq_some_iff (nonempty : run ≠ []) (digits : ∀ c ∈ run, c.isDigit = true)
    {n : Int64} : readInt64 run = some n ↔ n.toInt = Nat.ofDigitChars 10 run 0 := by
  rw [readInt64, readInt_digits nonempty digits, Option.bind_some]
  have low := n.le_toInt
  have high := n.toInt_lt
  split
  · rename_i fits
    rw [Option.some.injEq]
    constructor
    · rintro rfl
      exact Int64.toInt_ofInt_of_le fits.1 fits.2
    · intro same
      rw [← same, Int64.ofInt_toInt]
  · rename_i wide
    constructor
    · nofun
    · intro same
      exact absurd ⟨by omega, by omega⟩ wide

theorem readInt64_eq_none_iff (nonempty : run ≠ []) (digits : ∀ c ∈ run, c.isDigit = true) :
    readInt64 run = none ↔ 2 ^ 63 - 1 < Nat.ofDigitChars 10 run 0 := by
  rw [readInt64, readInt_digits nonempty digits, Option.bind_some]
  split <;> simp <;> omega

end Numeral

namespace Token

/-- A run of letters and digits that begins at a place of a text and cannot be made longer. -/
structure MaximalRun (text : List Char) (place : Nat) (run : List Char) : Prop where
  nonempty : run ≠ []
  stands : run <+: text.drop place
  inside : ∀ c ∈ run, c.isAlphanum = true
  before : ∀ c ∈ (text.take place).getLast?, c.isAlphanum = false
  behind : ∀ c ∈ (text.drop (place + run.length)).head?, c.isAlphanum = false

/-- The token that a run stands for. -/
inductive Denotes (run : List Char) : Token → Prop
  | integer {n : Int64} : (∀ c ∈ run, c.isDigit = true) →
      n.toInt = Nat.ofDigitChars 10 run 0 → Denotes run (integer n)
  | reserved : String.ofList run ∈ reserved → Denotes run (symbol ("$" ++ String.ofList run))
  | identifier : (∃ c ∈ run, c.isDigit = false) → String.ofList run ∉ reserved →
      Denotes run (identifier (String.ofList run))

/-- The token that begins at a place of a text. -/
inductive Lexeme (text : List Char) (place : Nat) : Token → Prop
  | run {run : List Char} {t : Token} : MaximalRun text place run → Denotes run t →
      Lexeme text place t
  | punctuation {c : Char} : text[place]? = some c → isPunctuation c = true →
      Lexeme text place (symbol (String.singleton c))

/-- A run that is an integer above the greatest one of 64 bits. -/
def TooLarge (run : List Char) : Prop :=
  (∀ c ∈ run, c.isDigit = true) ∧ 2 ^ 63 - 1 < Nat.ofDigitChars 10 run 0

/-- The tokens are those of all lexemes of a text, in the order of their places. -/
def Lexes (text : List Char) (tokens : List Token) : Prop :=
  ∃ lexemes : List (Nat × Token), lexemes.map Prod.snd = tokens ∧
    lexemes.Pairwise (fun l l' => l.1 < l'.1) ∧ ∀ place t, (place, t) ∈ lexemes ↔ Lexeme text place t

theorem not_digits_of_reserved {run : List Char} (member : String.ofList run ∈ reserved) :
    ¬ ∀ c ∈ run, c.isDigit = true := by
  have lettered : ∀ word ∈ reserved, ¬ word.toList.all Char.isDigit = true := by decide
  simpa using lettered _ member

theorem ofRun_eq_some_iff {run : List Char} {t : Token} (nonempty : run ≠ []) :
    ofRun run = some t ↔ Denotes run t := by
  unfold ofRun
  by_cases digits : ∀ c ∈ run, c.isDigit = true
  · rw [if_pos (List.all_eq_true.mpr digits), Option.map_eq_some_iff]
    constructor
    · rintro ⟨n, read, rfl⟩
      exact .integer digits ((Numeral.readInt64_eq_some_iff nonempty digits).mp read)
    · intro denotes
      cases denotes with
      | integer _ value => exact ⟨_, (Numeral.readInt64_eq_some_iff nonempty digits).mpr value, rfl⟩
      | reserved member => exact absurd digits (not_digits_of_reserved member)
      | identifier other =>
        obtain ⟨c, member, letter⟩ := other
        exact absurd (digits c member) (by simp [letter])
  · rw [if_neg (by rwa [List.all_eq_true])]
    dsimp only
    constructor
    · intro made
      split at made
      · cases made
        exact .reserved ‹_›
      · cases made
        refine .identifier ?_ ‹_›
        simpa using digits
    · intro denotes
      cases denotes with
      | integer all => exact absurd all digits
      | reserved member => exact if_pos member
      | identifier _ other => exact if_neg other

theorem ofRun_eq_none_iff {run : List Char} (nonempty : run ≠ []) :
    ofRun run = none ↔ TooLarge run := by
  unfold ofRun TooLarge
  by_cases digits : ∀ c ∈ run, c.isDigit = true
  · rw [if_pos (List.all_eq_true.mpr digits), Option.map_eq_none_iff,
      Numeral.readInt64_eq_none_iff nonempty digits]
    exact (and_iff_right digits).symm
  · rw [if_neg (by rwa [List.all_eq_true])]
    dsimp only
    constructor
    · intro none
      split at none <;> cases none
    · exact fun large => absurd large.1 digits

section Places

variable {front rest run run' : List Char} {c : Char} {place : Nat} {t : Token}

theorem MaximalRun.eq_takeWhile {text : List Char} (maximal : MaximalRun text place run) :
    run = (text.drop place).takeWhile Char.isAlphanum := by
  obtain ⟨more, split⟩ := maximal.stands
  have ended := maximal.behind
  rw [← List.drop_drop, ← split, List.drop_left] at ended
  rw [← split, Text.takeWhile_run maximal.inside ended]

/-- Behind a place where no run goes on, the runs are those of the rest. -/
theorem MaximalRun.append_iff
    (parted : ∀ a ∈ front.getLast?, ∀ b ∈ rest.head?, b.isAlphanum = true → a.isAlphanum = false) :
    MaximalRun (front ++ rest) (front.length + place) run ↔ MaximalRun rest place run := by
  have inner : (front ++ rest).drop (front.length + place) = rest.drop place :=
    List.drop_length_add_append place
  have outer : (front ++ rest).drop (front.length + place + run.length) =
      rest.drop (place + run.length) := by
    rw [Nat.add_assoc, List.drop_length_add_append]
  have upTo : (front ++ rest).take (front.length + place) = front ++ rest.take place :=
    List.take_length_add_append place
  constructor
  · rintro ⟨nonempty, stands, inside, before, behind⟩
    refine ⟨nonempty, inner ▸ stands, inside, fun c last => before c ?_, outer ▸ behind⟩
    rw [upTo, List.getLast?_append, Option.mem_def.mp last]
    rfl
  · rintro ⟨nonempty, stands, inside, before, behind⟩
    refine ⟨nonempty, inner ▸ stands, inside, fun c last => ?_, outer ▸ behind⟩
    rw [upTo, List.getLast?_append] at last
    cases inRest : (rest.take place).getLast? with
    | some b =>
      rw [inRest] at last
      cases last
      exact before _ inRest
    | none =>
      rw [inRest] at last
      -- The run stands at the very beginning of the rest, unless this is empty.
      have start : rest.drop place = rest := by
        rw [List.getLast?_eq_none_iff, List.take_eq_nil_iff] at inRest
        rcases inRest with rfl | rfl
        · rfl
        · exact List.drop_nil
      obtain ⟨first, later, rfl⟩ := List.exists_cons_of_ne_nil nonempty
      rw [start] at stands
      obtain ⟨more, rfl⟩ := stands
      exact parted c last first rfl (inside first List.mem_cons_self)

/-- A run at the beginning of a text is the only one that begins in it. -/
theorem MaximalRun.run_iff (letters : ∀ c ∈ run, c.isAlphanum = true)
    (ended : ∀ c ∈ rest.head?, c.isAlphanum = false) (less : place < run.length) :
    MaximalRun (run ++ rest) place run' ↔ place = 0 ∧ run' = run := by
  constructor
  · intro maximal
    have first : place = 0 := by
      refine Nat.eq_zero_of_not_pos fun later => ?_
      -- The character before the place would be in the run as well.
      have member : run[place - 1] ∈ (List.take place (run ++ rest)).getLast? := by
        rw [List.take_append_of_le_length (Nat.le_of_lt less), List.getLast?_eq_getElem?,
          List.length_take, Nat.min_eq_left (Nat.le_of_lt less), List.getElem?_take_of_lt (by omega),
          List.getElem?_eq_getElem (by omega)]
        rfl
      have outside := maximal.before _ member
      rw [letters _ (List.getElem_mem _)] at outside
      cases outside
    subst first
    refine ⟨rfl, ?_⟩
    rw [maximal.eq_takeWhile, List.drop_zero, Text.takeWhile_run letters ended]
  · rintro ⟨rfl, rfl⟩
    refine ⟨List.ne_nil_of_length_pos less, List.prefix_append _ _, letters, nofun, ?_⟩
    rwa [Nat.zero_add, List.drop_left]

theorem MaximalRun.not_nil : ¬ MaximalRun [] place run := by
  intro maximal
  exact maximal.nonempty (List.prefix_nil.mp (List.drop_nil ▸ maximal.stands))

theorem MaximalRun.not_cons (other : c.isAlphanum = false) : ¬ MaximalRun (c :: rest) 0 run := by
  intro maximal
  have empty := maximal.eq_takeWhile
  simp only [List.drop_zero, List.takeWhile_cons, other, Bool.false_eq_true, if_false] at empty
  exact maximal.nonempty empty

theorem Lexeme.append_iff
    (parted : ∀ a ∈ front.getLast?, ∀ b ∈ rest.head?, b.isAlphanum = true → a.isAlphanum = false) :
    Lexeme (front ++ rest) (front.length + place) t ↔ Lexeme rest place t := by
  have same : (front ++ rest)[front.length + place]? = rest[place]? := by
    rw [List.getElem?_append_right (Nat.le_add_right ..), Nat.add_sub_cancel_left]
  constructor
  · intro lexeme
    cases lexeme with
    | run maximal denotes => exact .run ((MaximalRun.append_iff parted).mp maximal) denotes
    | punctuation found mark => exact .punctuation (same ▸ found) mark
  · intro lexeme
    cases lexeme with
    | run maximal denotes => exact .run ((MaximalRun.append_iff parted).mpr maximal) denotes
    | punctuation found mark => exact .punctuation (same ▸ found) mark

theorem isAlphanum_of_isPunctuation (mark : isPunctuation c = true) : c.isAlphanum = false := by
  simpa using (Bool.and_eq_true_iff.mp mark).2

/-- A text begins with a piece that has at most one lexeme, at its first place, and no integer that is too
large; no run goes on behind the piece. -/
structure Begins (front rest : List Char) (first : Option Token) : Prop where
  parted : ∀ a ∈ front.getLast?, ∀ b ∈ rest.head?, b.isAlphanum = true → a.isAlphanum = false
  lexeme : ∀ place < front.length, ∀ t, Lexeme (front ++ rest) place t ↔ place = 0 ∧ t ∈ first
  fits : ∀ place < front.length, ∀ run, MaximalRun (front ++ rest) place run → ¬ TooLarge run

theorem Begins.word (nonempty : run ≠ []) (letters : ∀ c ∈ run, c.isAlphanum = true)
    (ended : ∀ c ∈ rest.head?, c.isAlphanum = false) (made : ofRun run = some t) :
    Begins run rest (some t) where
  parted a _ b head letter := by
    rw [ended b head] at letter
    cases letter
  lexeme place less t' := by
    rw [← made, Option.mem_def, ofRun_eq_some_iff nonempty]
    constructor
    · intro lexeme
      cases lexeme with
      | run maximal denotes =>
        obtain ⟨rfl, rfl⟩ := (MaximalRun.run_iff letters ended less).mp maximal
        exact ⟨rfl, denotes⟩
      | punctuation found mark =>
        rw [List.getElem?_append_left less] at found
        have letter := letters _ (List.mem_of_getElem? found)
        rw [isAlphanum_of_isPunctuation mark] at letter
        cases letter
    · rintro ⟨rfl, denotes⟩
      exact .run ((MaximalRun.run_iff letters ended less).mpr ⟨rfl, rfl⟩) denotes
  fits place less run' maximal large := by
    obtain ⟨rfl, rfl⟩ := (MaximalRun.run_iff letters ended less).mp maximal
    cases made.symm.trans ((ofRun_eq_none_iff nonempty).mpr large)

theorem Begins.mark (mark : isPunctuation c = true) :
    Begins [c] rest (some (symbol (String.singleton c))) where
  parted a last b _ _ := by
    cases last
    exact isAlphanum_of_isPunctuation mark
  lexeme place less t := by
    obtain rfl : place = 0 := Nat.lt_one_iff.mp less
    constructor
    · intro lexeme
      cases lexeme with
      | run maximal => exact absurd maximal (MaximalRun.not_cons (isAlphanum_of_isPunctuation mark))
      | punctuation found =>
        cases found
        exact ⟨rfl, rfl⟩
    · rintro ⟨_, same⟩
      cases same
      exact .punctuation rfl mark
  fits place less run maximal := by
    obtain rfl : place = 0 := Nat.lt_one_iff.mp less
    exact absurd maximal (MaximalRun.not_cons (isAlphanum_of_isPunctuation mark))

theorem Begins.separator (other : c.isAlphanum = false) (silent : isPunctuation c = false) :
    Begins [c] rest none where
  parted a last b _ _ := by
    cases last
    exact other
  lexeme place less t := by
    obtain rfl : place = 0 := Nat.lt_one_iff.mp less
    constructor
    · intro lexeme
      cases lexeme with
      | run maximal => exact absurd maximal (MaximalRun.not_cons other)
      | punctuation found mark =>
        cases found
        rw [silent] at mark
        cases mark
    · rintro ⟨_, absent⟩
      cases absent
  fits place less run maximal := by
    obtain rfl : place = 0 := Nat.lt_one_iff.mp less
    exact absurd maximal (MaximalRun.not_cons other)

/-- The tokens of a text are that of its first piece and those of the rest. -/
theorem Lexes.append {first : Option Token} {tokens : List Token} (begins : Begins front rest first)
    (nonempty : front ≠ []) (lexes : Lexes rest tokens) :
    Lexes (front ++ rest) (first.toList ++ tokens) := by
  obtain ⟨lexemes, rfl, ordered, each⟩ := lexes
  have long := List.length_pos_iff.mpr nonempty
  let moved := lexemes.map fun l => (front.length + l.1, l.2)
  refine ⟨first.toList.map (fun t => (0, t)) ++ moved, ?_, ?_, fun place t => ?_⟩
  · simp [moved, Function.comp_def]
  · rw [List.pairwise_append]
    refine ⟨?_, ?_, ?_⟩
    · cases first <;> simp
    · exact List.pairwise_map.mpr (ordered.imp fun less => Nat.add_lt_add_left less _)
    · rintro ⟨place, t⟩ early ⟨place', t'⟩ late
      obtain ⟨_, _, ⟨⟩⟩ := List.mem_map.mp early
      obtain ⟨_, _, ⟨⟩⟩ := List.mem_map.mp late
      exact Nat.add_pos_left long _
  · by_cases less : place < front.length
    · rw [begins.lexeme place less, List.mem_append]
      constructor
      · rintro (early | late)
        · obtain ⟨_, member, ⟨⟩⟩ := List.mem_map.mp early
          exact ⟨rfl, Option.mem_toList.mp member⟩
        · obtain ⟨l, _, same⟩ := List.mem_map.mp late
          have behind : front.length + l.1 = place := congrArg Prod.fst same
          omega
      · rintro ⟨rfl, member⟩
        exact .inl (List.mem_map_of_mem (Option.mem_toList.mpr member))
    · obtain ⟨place, rfl⟩ := Nat.exists_eq_add_of_le (Nat.le_of_not_lt less)
      rw [Lexeme.append_iff begins.parted, ← each, List.mem_append]
      constructor
      · rintro (early | late)
        · obtain ⟨_, _, same⟩ := List.mem_map.mp early
          have start : 0 = front.length + place := congrArg Prod.fst same
          omega
        · obtain ⟨⟨place', t'⟩, member, same⟩ := List.mem_map.mp late
          have places : front.length + place' = front.length + place := congrArg Prod.fst same
          have tokens : t' = t := congrArg Prod.snd same
          rwa [Nat.add_left_cancel places, tokens] at member
      · exact fun member => .inr (List.mem_map_of_mem member)

end Places

/-- What a scan that began at an offset says of a text: the tokens of its lexemes, none of which is too
large, or else the place of the first one that is. -/
def Accounts (offset : Nat) (text : List Char) : Except Nat (List Token) → Prop
  | .ok tokens => (∀ place run, MaximalRun text place run → ¬ TooLarge run) ∧ Lexes text tokens
  | .error found => ∃ place run, found = offset + place ∧ MaximalRun text place run ∧ TooLarge run ∧
      ∀ place' run', MaximalRun text place' run' → TooLarge run' → place ≤ place'

theorem Accounts.append {offset : Nat} {front rest : List Char} {first : Option Token}
    {result : Except Nat (List Token)} (begins : Begins front rest first) (nonempty : front ≠ [])
    (accounts : Accounts (offset + front.length) rest result) :
    Accounts offset (front ++ rest) (result.map (first.toList ++ ·)) := by
  -- A run that is too large does not begin in the first piece.
  have later {place : Nat} {run : List Char} (maximal : MaximalRun (front ++ rest) place run)
      (large : TooLarge run) : ∃ place', place = front.length + place' ∧ MaximalRun rest place' run := by
    have far : front.length ≤ place :=
      Nat.le_of_not_lt fun less => begins.fits place less run maximal large
    obtain ⟨place', rfl⟩ := Nat.exists_eq_add_of_le far
    exact ⟨place', rfl, (MaximalRun.append_iff begins.parted).mp maximal⟩
  cases result with
  | ok tokens =>
    obtain ⟨fits, lexes⟩ := accounts
    refine ⟨fun place run maximal large => ?_, lexes.append begins nonempty⟩
    obtain ⟨place', _, inRest⟩ := later maximal large
    exact fits place' run inRest large
  | error found =>
    obtain ⟨place, run, rfl, maximal, large, least⟩ := accounts
    refine ⟨front.length + place, run, Nat.add_assoc .., ?_, large, fun place' run' maximal' large' => ?_⟩
    · exact (MaximalRun.append_iff begins.parted).mpr maximal
    · obtain ⟨place', rfl, inRest⟩ := later maximal' large'
      exact Nat.add_le_add_left (least place' run' inRest large') _

theorem scanFrom_accounts (offset : Nat) (cs : List Char) :
    Accounts offset cs (scanFrom offset cs) := by
  have letters {c : Char} {rest : List Char} (letter : c.isAlphanum = true) :
      ∀ x ∈ c :: rest.takeWhile Char.isAlphanum, x.isAlphanum = true :=
    List.forall_mem_cons.mpr ⟨letter, List.all_eq_true.mp List.all_takeWhile⟩
  have ended (rest : List Char) :
      ∀ x ∈ (rest.dropWhile Char.isAlphanum).head?, x.isAlphanum = false := by
    intro x head
    have stops := List.head?_dropWhile_not Char.isAlphanum rest
    rwa [Option.mem_def.mp head] at stops
  have split (c : Char) (rest : List Char) : c :: rest =
      (c :: rest.takeWhile Char.isAlphanum) ++ rest.dropWhile Char.isAlphanum := by
    rw [List.cons_append, List.takeWhile_append_dropWhile]
  fun_induction scanFrom offset cs with
  | case1 =>
    refine ⟨fun _ _ maximal => absurd maximal MaximalRun.not_nil, [], rfl, .nil, fun place t => ?_⟩
    refine ⟨fun member => absurd member List.not_mem_nil, fun lexeme => ?_⟩
    cases lexeme with
    | run maximal => exact absurd maximal MaximalRun.not_nil
    | punctuation found => cases found
  | case2 offset c rest letter shorter run failed =>
    refine ⟨0, run, rfl, ?_, (ofRun_eq_none_iff (List.cons_ne_nil _ _)).mp failed, fun _ _ _ _ => ?_⟩
    · rw [split c rest]
      exact (MaximalRun.run_iff (letters letter) (ended rest) (Nat.succ_pos _)).mpr ⟨rfl, rfl⟩
    · exact Nat.zero_le _
  | case3 offset c rest letter shorter run token made ih =>
    have begins := Begins.word (List.cons_ne_nil _ _) (letters letter) (ended rest) made
    rw [split c rest]
    exact ih.append begins (List.cons_ne_nil _ _)
  | case4 offset c rest other mark ih => exact ih.append (.mark mark) (List.cons_ne_nil c [])
  | case5 offset c rest other silent ih =>
    have begins : Begins [c] rest none :=
      .separator (Bool.eq_false_iff.mpr other) (Bool.eq_false_iff.mpr silent)
    have accounts := ih.append begins (List.cons_ne_nil c [])
    have same : (scanFrom (offset + 1) rest).map ((none : Option Token).toList ++ ·) =
        scanFrom (offset + 1) rest := by
      cases scanFrom (offset + 1) rest <;> rfl
    rwa [same] at accounts

/-- A scan fails exactly if a maximal run is an integer that is too large, and names the first such run.
Otherwise it gives the tokens of all lexemes in the order of their places. -/
theorem scan_lists_lexemes (text : String) :
    ((∃ e, scan text = .error e) ↔
      ∃ place run, MaximalRun text.toList place run ∧ TooLarge run) ∧
    (∀ e, scan text = .error e → ∃ place run, MaximalRun text.toList place run ∧ TooLarge run ∧
      (∀ place' run', MaximalRun text.toList place' run' → TooLarge run' → place ≤ place') ∧
      e = .failed "source" text [⟨place, "Digit"⟩, ⟨place, "integer literal out of range"⟩]) ∧
    ∀ tokens, scan text = .ok tokens → Lexes text.toList tokens := by
  have accounts := scanFrom_accounts 0 text.toList
  unfold scan
  cases whole : scanFrom 0 text.toList with
  | error found =>
    rw [whole] at accounts
    obtain ⟨place, run, rfl, maximal, large, least⟩ := accounts
    refine ⟨⟨fun _ => ⟨place, run, maximal, large⟩, fun _ => ⟨_, rfl⟩⟩, ?_, nofun⟩
    rintro _ ⟨⟩
    exact ⟨place, run, maximal, large, least, by rw [Nat.zero_add]⟩
  | ok tokens =>
    rw [whole] at accounts
    obtain ⟨fits, lexes⟩ := accounts
    refine ⟨⟨nofun, ?_⟩, nofun, ?_⟩
    · rintro ⟨place, run, maximal, large⟩
      exact absurd large (fits place run maximal)
    · rintro _ ⟨⟩
      exact lexes

end Token

end Pushdown
