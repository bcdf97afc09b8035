import Mathlib
import Pushdown.Grammar.Programs
import Pushdown.Proofs.GrammarLines
import Pushdown.Token.Listing

/-! Token listings. A word of a listing is told to be a name or a value by the vocabulary of a grammar and by the
word before it. So a listing is read exactly if it begins with a name and has one among any two neighbours;
otherwise the first word is reported that is no name and could be no value. Tokens are read back from a listing
of their names and values, whatever blanks stand between these. -/
namespace Pushdown

open Text (IsWord)

/-- The symbols that name tokens. -/
def Grammar.vocabulary (g : Grammar) : List Symbol := g.terminals ++ g.nonterminals

theorem Grammar.isVocabulary_iff (g : Grammar) (s : Symbol) :
    g.isVocabulary s = true ↔ s ∈ g.vocabulary := by
  simp only [isVocabulary, kind?, vocabulary, List.mem_append]
  grind

namespace Text

/-- The words of a text. -/
def wordList (text : String) : List String := (words text.toList).map String.ofList

/-- A text of the given words with blanks between them. One more blank in front makes each stand behind
blanks. -/
def Spread (ws : List String) (text : String) : Prop := Grammar.Side ws (' ' :: text.toList)

theorem Spread.wordList_eq {ws : List String} {text : String} (solid : ∀ w ∈ ws, IsWord w.toList)
    (spread : Spread ws text) : wordList text = ws := by
  have blank : IsBlank [' '] := by decide
  have found := spread.words_eq solid
  rwa [← List.singleton_append, words_blank_append blank] at found

end Text

namespace Token

/-- The first word is a name, and of two neighbours at least one is. -/
structure Orderly (names words : List String) : Prop where
  first : ∀ w ∈ words.head?, w ∈ names
  neighbours : words.IsChain fun v w => v ∈ names ∨ w ∈ names

/-- A word that does not fit behind others, which are in order: it is no name, and there is none just before it
that it could be the value of. -/
structure Stray (names before : List String) (word : String) : Prop where
  orderly : Orderly names before
  unknown : word ∉ names
  unnamed : ∀ v ∈ before.getLast?, v ∉ names

section Reading

variable {isName : String → Bool} {names before after words : List String} {name word : String}

theorem Orderly.nil : Orderly names [] := ⟨by simp, .nil⟩

theorem orderly_cons_iff : Orderly names (word :: words) ↔
    word ∈ names ∧ words.IsChain fun v w => v ∈ names ∨ w ∈ names := by
  constructor
  · intro orderly
    exact ⟨orderly.first word rfl, orderly.neighbours.tail⟩
  · rintro ⟨known, chain⟩
    refine ⟨by simpa using known, ?_⟩
    rw [List.isChain_cons]
    exact ⟨fun _ _ => .inl known, chain⟩

theorem isChain_value_cons_iff (value : word ∉ names) :
    (word :: words).IsChain (fun v w => v ∈ names ∨ w ∈ names) ↔ Orderly names words := by
  rw [List.isChain_cons]
  constructor
  · rintro ⟨next, chain⟩
    exact ⟨fun w member => (next w member).resolve_left value, chain⟩
  · intro orderly
    exact ⟨fun w member => .inr (orderly.first w member), orderly.neighbours⟩

theorem Stray.not_orderly (stray : Stray names before word) : ¬ Orderly names (before ++ word :: after) := by
  intro orderly
  cases last : before.getLast? with
  | none =>
    rw [List.getLast?_eq_none_iff] at last
    subst last
    exact stray.unknown (orderly.first word rfl)
  | some v =>
    obtain ⟨_, _, joined⟩ := List.isChain_append.mp orderly.neighbours
    rcases joined v last word rfl with known | known
    · exact stray.unnamed v last known
    · exact stray.unknown known

/-- There is only one first word that does not fit. -/
theorem Stray.unique {before' after' : List String} {word' : String} (stray : Stray names before word)
    (stray' : Stray names before' word') (same : before ++ word :: after = before' ++ word' :: after') :
    word = word' := by
  rcases List.append_eq_append_iff.mp same with ⟨between, rfl, tails⟩ | ⟨between, rfl, tails⟩
  · cases between with
    | nil => exact (List.cons.inj tails).1
    | cons w between =>
      cases (List.cons.inj tails).1
      exact absurd stray'.orderly stray.not_orderly
  · cases between with
    | nil => exact (List.cons.inj tails).1.symm
    | cons w between =>
      cases (List.cons.inj tails).1
      exact absurd stray.orderly stray'.not_orderly

/-- What is to be said of words: they are in order, or one of them is the first that does not fit. -/
inductive Judged (names words : List String) : Except UnknownName (List Token) → Prop
  | read {tokens : List Token} (orderly : Orderly names words) : Judged names words (.ok tokens)
  | refused (before after : List String) {word : String} (whole : words = before ++ word :: after)
    (stray : Stray names before word) : Judged names words (.error ⟨word⟩)

variable {verdict : Except UnknownName (List Token)} {extend : List Token → List Token}

theorem Judged.behind_name (known : name ∈ names) (next : ∀ w ∈ words.head?, w ∈ names)
    (judged : Judged names words verdict) : Judged names (name :: words) (verdict.map extend) := by
  cases judged with
  | read orderly => exact .read (orderly_cons_iff.mpr ⟨known, orderly.neighbours⟩)
  | @refused before after word whole stray =>
    refine .refused (name :: before) after (congrArg (name :: ·) whole) ⟨?_, stray.unknown, ?_⟩
    · exact orderly_cons_iff.mpr ⟨known, stray.orderly.neighbours⟩
    · -- The word does not come first, or it would be a name.
      cases before with
      | nil => exact absurd (next word (by simp [whole])) stray.unknown
      | cons w before => simpa using stray.unnamed

theorem Judged.behind_value (known : name ∈ names) (value : word ∉ names)
    (judged : Judged names words verdict) :
    Judged names (name :: word :: words) (verdict.map extend) := by
  have following {ws : List String} (orderly : Orderly names ws) : Orderly names (name :: word :: ws) :=
    orderly_cons_iff.mpr ⟨known, (isChain_value_cons_iff value).mpr orderly⟩
  cases judged with
  | read orderly => exact .read (following orderly)
  | refused before after whole stray =>
    refine .refused (name :: word :: before) after (congrArg (name :: word :: ·) whole)
      ⟨following stray.orderly, stray.unknown, ?_⟩
    cases before with
    | nil => simpa using value
    | cons w before => simpa using stray.unnamed

theorem ofWords_judged (tells : ∀ s, isName s = true ↔ s ∈ names) (words : List String) :
    Judged names words (ofWords isName words) := by
  have alone {word : String} {rest : List String} (unknown : ¬ isName word = true) :
      Judged names (word :: rest) (.error ⟨word⟩) :=
    .refused [] rest rfl ⟨.nil, unknown ∘ (tells word).mpr, by simp⟩
  fun_induction ofWords isName words with
  | case1 => exact .read .nil
  | case2 name known => exact .read (orderly_cons_iff.mpr ⟨(tells name).mp known, .nil⟩)
  | case3 name unknown => exact alone unknown
  | case4 name word rest known next ih =>
    exact ih.behind_name ((tells name).mp known) (by simpa using (tells word).mp next)
  | case5 name word rest known value ih =>
    exact ih.behind_value ((tells name).mp known) (value ∘ (tells word).mpr)
  | case6 name word rest unknown => exact alone unknown

theorem ofWords_eq_ok_iff (tells : ∀ s, isName s = true ↔ s ∈ names) :
    (∃ tokens, ofWords isName words = .ok tokens) ↔ Orderly names words := by
  have judged := ofWords_judged tells words
  constructor
  · rintro ⟨tokens, read⟩
    rw [read] at judged
    cases judged with
    | read orderly => exact orderly
  · intro orderly
    generalize ofWords isName words = verdict at judged ⊢
    cases judged with
    | read => exact ⟨_, rfl⟩
    | refused _ _ whole stray => exact absurd (whole ▸ orderly) stray.not_orderly

theorem ofWords_eq_error_iff (tells : ∀ s, isName s = true ↔ s ∈ names) :
    ofWords isName words = .error ⟨word⟩ ↔
      ∃ before after, words = before ++ word :: after ∧ Stray names before word := by
  have judged := ofWords_judged tells words
  constructor
  · intro failed
    rw [failed] at judged
    cases judged with
    | refused _ _ whole stray => exact ⟨_, _, whole, stray⟩
  · rintro ⟨before, after, whole, stray⟩
    generalize ofWords isName words = verdict at judged ⊢
    cases judged with
    | read orderly => exact absurd (whole ▸ orderly) stray.not_orderly
    | refused _ _ whole' stray' => rw [stray'.unique stray (whole'.symm.trans whole)]

end Reading

/-- The words that write a token: its name, and its value if it has one. -/
def written (t : Token) : List String := t.name :: (t.value.map Value.render).toList

/-- A token whose name and value can be told apart in a listing: the name is in the vocabulary, and the value is
written as a word that is not, and that is read as the value. -/
structure Listable (names : List String) (t : Token) : Prop where
  name : IsWord t.name.toList
  known : t.name ∈ names
  value : ∀ v, t.value = some v → IsWord v.render.toList
  unknown : ∀ v, t.value = some v → v.render ∉ names
  reads : ∀ v, t.value = some v → Value.ofWord v.render = v

section Writing

variable {isName : String → Bool} {names : List String} {tokens : List Token}

theorem isWord_of_mem_written (listable : ∀ t ∈ tokens, Listable names t) :
    ∀ w ∈ tokens.flatMap written, IsWord w.toList := by
  intro w member
  obtain ⟨t, inTokens, inWritten⟩ := List.mem_flatMap.mp member
  have listable := listable t inTokens
  rcases List.mem_cons.mp inWritten with rfl | isValue
  · exact listable.name
  · rw [Option.mem_toList, Option.map_eq_some_iff] at isValue
    obtain ⟨v, valued, rfl⟩ := isValue
    exact listable.value v valued

theorem ofWords_written (tells : ∀ s, isName s = true ↔ s ∈ names)
    (listable : ∀ t ∈ tokens, Listable names t) :
    ofWords isName (tokens.flatMap written) = .ok tokens := by
  induction tokens with
  | nil => rfl
  | cons t later ih =>
    obtain ⟨here, others⟩ := List.forall_mem_cons.mp listable
    have read := ih others
    have known := (tells t.name).mpr here.known
    obtain ⟨name, value⟩ := t
    cases value with
    | some v =>
      have unknown : isName v.render = false := by
        rw [← Bool.not_eq_true, tells]
        exact here.unknown v rfl
      change ofWords isName (name :: v.render :: later.flatMap written) = _
      rw [ofWords, if_pos known, unknown, read, here.reads v rfl]
      rfl
    | none =>
      change ofWords isName (name :: later.flatMap written) = _
      -- A name comes next, or nothing.
      cases later with
      | nil =>
        rw [List.flatMap_nil, ofWords, if_pos known]
      | cons next later =>
        have nextKnown := (tells next.name).mpr (others next List.mem_cons_self).known
        rw [List.flatMap_cons, written, List.cons_append] at read ⊢
        rw [ofWords, if_pos known, if_pos nextKnown, read]
        rfl

end Writing

end Token

open Grammar Text Token

/-- A listing is read exactly if its first word is in the vocabulary of the grammar and no two words in a row are
outside it. If not, the first word is reported that is outside it and is the first of all or behind
another such word. Tokens whose names are words of the vocabulary, and whose values are words outside it that
are read as they were, are read back from their names and values with any blanks between these. -/
theorem token_listing_is_read_iff (g : Grammar) :
    (∀ text, (∃ tokens, ofListing g.isVocabulary text = .ok tokens) ↔
      Orderly g.vocabulary (wordList text)) ∧
    (∀ text word, ofListing g.isVocabulary text = .error ⟨word⟩ ↔
      ∃ before after, wordList text = before ++ word :: after ∧ Stray g.vocabulary before word) ∧
    ∀ tokens text, (∀ t ∈ tokens, Listable g.vocabulary t) → Spread (tokens.flatMap written) text →
      ofListing g.isVocabulary text = .ok tokens := by
  have tells := g.isVocabulary_iff
  refine ⟨fun text => ofWords_eq_ok_iff tells, fun text word => ofWords_eq_error_iff tells, ?_⟩
  intro tokens text listable spread
  have words := spread.wordList_eq (isWord_of_mem_written listable)
  change ofWords g.isVocabulary (wordList text) = .ok tokens
  rw [words]
  exact ofWords_written tells listable

/-- A value that begins with a name of the vocabulary. -/
def signedTokens : List Token := [⟨"$put", none⟩, ⟨"$int", some (.int (-5))⟩, ⟨";", none⟩]

theorem token_listing_is_read_iff_signed :
    (∀ t ∈ signedTokens, Listable programScheme.vocabulary t) ∧
      Spread (signedTokens.flatMap written) "$put\n$int  -5 ;" ∧
      ofListing programScheme.isVocabulary "$put\n$int  -5 ;" = .ok signedTokens ∧
      ofListing programScheme.isVocabulary "$int -5 - -6 -7 -8" = .error ⟨"-7"⟩ := by
  have bare {name : String} (word : IsWord name.toList) (known : name ∈ programScheme.vocabulary) :
      Listable programScheme.vocabulary ⟨name, none⟩ :=
    ⟨word, known, nofun, nofun, nofun⟩
  have listable : ∀ t ∈ signedTokens, Listable programScheme.vocabulary t := by
    have signed : Listable programScheme.vocabulary ⟨"$int", some (.int (-5))⟩ := by
      refine ⟨by decide, by decide, ?_, ?_, ?_⟩
      · rintro _ ⟨⟩
        decide
      · rintro _ ⟨⟩
        decide
      · rintro _ ⟨⟩
        cbv
    simp only [signedTokens, List.forall_mem_cons]
    exact ⟨bare (by decide) (by decide), signed, bare (by decide) (by decide), by simp⟩
  have spread : Spread (signedTokens.flatMap written) "$put\n$int  -5 ;" := by
    have whole : ' ' :: "$put\n$int  -5 ;".toList = [' '] ++ "$put".toList ++ (['\n'] ++ "$int".toList ++
        ([' ', ' '] ++ "-5".toList ++ ([' '] ++ ";".toList ++ []))) := by decide
    rw [Spread, whole]
    refine .cons (by simp) (by decide) (.cons (by simp) (by decide) (.cons (by simp) (by decide) ?_))
    exact .cons (by simp) (by decide) (.nil (by decide))
  obtain ⟨_, errors, reads⟩ := token_listing_is_read_iff programScheme
  refine ⟨listable, spread, reads _ _ listable spread, (errors _ _).mpr ?_⟩
  exact ⟨["$int", "-5", "-", "-6"], ["-8"], by cbv, ⟨by decide, by decide⟩, by decide, by decide⟩

/-- A grammar with a terminal that is written as nothing. -/
def nameless : Grammar := ⟨"s", ["", "#"], ["s"], [], []⟩

theorem nameless_token_not_read_back :
    Grammar.ofParts "s" ["", "#"] ["s"] [] [] [] = .ok nameless ∧
      Solid "".toList ∧ "" ∈ nameless.vocabulary ∧ Spread (written ⟨"", none⟩) "" ∧
      ofListing nameless.isVocabulary "" = .ok [] := by
  refine ⟨by rfl, by decide, by decide, ?_, by cbv⟩
  exact Grammar.Side.cons (by simp) (by decide : Text.IsBlank [' ']) (.nil Text.isBlank_nil)

end Pushdown
