import Mathlib
import Pushdown.Proofs.Compilation

/-! What a run reads. The tokens that are matched along a run are those of the source, from the first
one on, and none of them is an end marker. So an accepted source was read up to its first end marker. A
source that writes the marker itself is accepted there, and what stands behind it is not read. -/
namespace Pushdown

open Automaton Grammar Token

namespace Automaton

/-- Keeps the tokens that are matched, in order. -/
def tokenCollector {σ : Type} : Observer σ (List Token) := fun step _ read =>
  match step with
  | .matched t => read ++ [t]
  | _ => read

variable {σ ε : Type} {g : Grammar} {o : Outlook} {routine : Routine σ ε}

/-- How far a run has read: what it has matched and what is still to come are the tokens of its
source, and no symbol that it expects is an end marker. -/
structure Config.Reading (tokens : List Token) (c : Config σ) (read : List Token) : Prop where
  awaits : ∃ upcoming, c.Awaits upcoming ∧ read ++ upcoming = tokens ++ [ending]
  expects : endMarker ∉ c.stack
  proper : ∀ t ∈ read, t.name ≠ endMarker
  ended : c.state = .accepted → c.next.name = endMarker

namespace Config

theorem Reading.shift {tokens read : List Token} {c : Config σ} {s : Symbol} {rest : Stack Symbol}
    (reading : Reading tokens c read) (running : c.state = .running) (top : c.stack = s :: rest)
    (same : c.next.name = s) : Reading tokens (c.shift rest) (read ++ [c.next]) := by
  obtain ⟨⟨upcoming, awaits, whole⟩, expects, proper, _⟩ := reading
  rw [top] at expects
  -- What is matched was expected, and an end marker never is.
  have other : c.next.name ≠ endMarker := fun isEnd =>
    expects ((same.symm.trans isEnd) ▸ List.mem_cons_self)
  have split : upcoming = c.next :: upcoming.tail := by
    cases upcoming with
    | nil => exact absurd (congrArg Token.name awaits.next_eq) other
    | cons t later => exact congrArg (· :: later) awaits.next_eq.symm
  refine ⟨⟨upcoming.tail, awaits.shift rest, ?_⟩, ?_, ?_, ?_⟩
  · rw [List.append_assoc, List.singleton_append, ← split]
    exact whole
  · exact fun member => expects (List.mem_cons_of_mem _ member)
  · intro t member
    rcases List.mem_append.mp member with old | new
    · exact proper t old
    · rw [List.mem_singleton.mp new]
      exact other
  · intro accepted
    exact absurd (running.symm.trans accepted) (by decide)

theorem Reading.cycle {tokens read : List Token} {c : Config σ} (predicts : g.Predicts o)
    (reading : Reading tokens c read) (running : c.state = .running) :
    Meets (fun step c' => Reading tokens c' (tokenCollector step c' read)) (fun _ => True)
      (cycle g routine c) := by
  have effect := cycle_effect g routine c
  generalize Config.cycle g routine c = result at effect
  have stuck : c.state ≠ .accepted := by simp [running]
  obtain ⟨awaits, expects, proper, _⟩ := reading
  cases effect with
  | rejected => exact ⟨awaits, expects, proper, State.noConfusion⟩
  | accepted _ isEnd => exact ⟨awaits, List.not_mem_nil, proper, fun _ => isEnd⟩
  | expanded top _ _ selected =>
    obtain ⟨member, _, _⟩ := Grammar.select?_spec selected
    rw [top] at expects
    refine ⟨awaits, fun found => ?_, proper, fun accepted => absurd accepted stuck⟩
    rcases List.mem_append.mp found with inRule | below
    · exact (predicts.markers _ member).1 inRule
    · exact expects (List.mem_cons_of_mem _ below)
  | matched top _ _ same =>
    exact Reading.shift ⟨awaits, expects, proper, fun accepted => absurd accepted stuck⟩ running top same
  | performed top =>
    rw [top] at expects
    exact ⟨awaits, fun below => expects (List.mem_cons_of_mem _ below), proper,
      fun accepted => absurd accepted stuck⟩
  | failed => trivial

theorem Reading.init (predicts : g.Predicts o) (tokens : List Token) (work : σ) :
    Reading tokens (init g (.ofTokens tokens) work) [] := by
  refine ⟨⟨_, init_awaits tokens work, rfl⟩, ?_, ?_, State.noConfusion⟩
  · intro member
    rcases List.mem_cons.mp member with isStart | isBottom
    · exact predicts.start.2.1 isStart.symm
    · exact absurd (List.mem_singleton.mp isBottom) (by decide)
  · exact fun t member => absurd member List.not_mem_nil

/-- An accepting run has read all tokens before the first end marker. -/
theorem Reading.eq_upToEnd {tokens read : List Token} {c : Config σ} (reading : Reading tokens c read)
    (accepted : c.state = .accepted) : read = upToEnd tokens := by
  obtain ⟨⟨upcoming, awaits, whole⟩, _, proper, ended⟩ := reading
  have split : read ++ upcoming = tokens ++ List.replicate 1 ending := whole
  refine Config.eq_upToEnd split proper ?_
  rw [← awaits.next_eq]
  exact ended accepted

end Config

end Automaton

/-- The tokens that are matched while a text is compiled, within a budget of steps. -/
def Compiler.matched (g : Grammar) (text : String) (budget : Nat) : List Token :=
  match start g text none with
  | .error _ => []
  | .ok run =>
    match Watched.run g Emitter.routine tokenCollector budget ⟨run.config, []⟩ with
    | .ok _ w | .error _ w => w.notes

theorem matched_of_compile {text : String} {budget : Nat} {emission : Emission}
    (compiled : Compiler.compile programScheme text budget = some (.ok emission)) :
    ∃ tokens, scan text = .ok tokens ∧
      Compiler.matched programScheme text budget = upToEnd tokens := by
  obtain ⟨tokens, final, scanned, done, accepted, _⟩ := compile_run compiled
  obtain ⟨read, ran, reading⟩ := Watched.exists_notes tokenCollector
    (fun c read running (reading : c.Reading tokens read) =>
      reading.cycle programScheme_predicts running)
    (.init programScheme_predicts tokens _) done
  refine ⟨tokens, scanned, ?_⟩
  simp only [Compiler.matched, compiler_start scanned, ran]
  exact reading.eq_upToEnd accepted

namespace Token

theorem ofRun_ne_endMarker {run : List Char} {t : Token} (made : ofRun run = some t) :
    t.name ≠ endMarker := by
  unfold ofRun at made
  split at made
  · obtain ⟨n, _, rfl⟩ := Option.map_eq_some_iff.mp made
    simp [endMarker]
  · dsimp only at made
    split at made
    · rename_i member
      cases made
      have named : ∀ word ∈ reserved, "$" ++ word ≠ endMarker := by decide
      exact named _ member
    · cases made
      simp [endMarker]

theorem hash_mem_dropWhile (cs : List Char) :
    '#' ∈ cs.dropWhile Char.isAlphanum ↔ '#' ∈ cs := by
  conv_rhs => rw [← List.takeWhile_append_dropWhile (p := Char.isAlphanum) (l := cs)]
  rw [List.mem_append, or_iff_right]
  exact fun member => absurd (List.mem_takeWhile_imp member) (by decide)

theorem scanFrom_endMarker {offset : Nat} {cs : List Char} {tokens : List Token}
    (scanned : scanFrom offset cs = .ok tokens) :
    (∀ t ∈ tokens, t.name ≠ endMarker) ↔ '#' ∉ cs := by
  fun_induction scanFrom offset cs generalizing tokens with
  | case1 =>
    cases scanned
    simp
  | case2 => cases scanned
  | case3 offset c rest letter shorter run token made =>
    rename_i ih
    obtain ⟨later, read, rfl⟩ := map_cons_eq_ok scanned
    have other : '#' ≠ c := by
      rintro rfl
      exact absurd letter (by decide)
    rw [List.forall_mem_cons, ih read, hash_mem_dropWhile, List.mem_cons, or_iff_right other]
    exact and_iff_right (ofRun_ne_endMarker made)
  | case4 offset c rest other punctuation ih =>
    obtain ⟨later, read, rfl⟩ := map_cons_eq_ok scanned
    have named : String.singleton c ≠ endMarker ↔ '#' ≠ c := by
      rw [ne_comm, endMarker]
      exact not_congr ⟨fun same => by simpa using congrArg String.toList same, fun same => same ▸ rfl⟩
    rw [List.forall_mem_cons, ih read, List.mem_cons, not_or, named]
  | case5 offset c rest other separator ih =>
    have ordinary : '#' ≠ c := by
      rintro rfl
      exact absurd (by decide) separator
    rw [ih scanned, List.mem_cons, or_iff_right ordinary]

/-- A scanned text has a token of the end marker's name exactly if the marker stands in it. -/
theorem scan_endMarker {text : String} {tokens : List Token} (scanned : scan text = .ok tokens) :
    (∀ t ∈ tokens, t.name ≠ endMarker) ↔ '#' ∉ text.toList :=
  scanFrom_endMarker (scan_eq_ok scanned)

end Token

/-- What compilation reads of an accepted text: the tokens before the first end marker, which are all
tokens exactly if the text does not write the marker. -/
theorem compile_reads_up_to_endMarker {text : String} {budget : Nat} {emission : Emission}
    (compiled : Compiler.compile programScheme text budget = some (.ok emission)) :
    ∃ tokens, scan text = .ok tokens ∧
      Compiler.matched programScheme text budget = upToEnd tokens ∧
      (Compiler.matched programScheme text budget = tokens ↔ '#' ∉ text.toList) := by
  obtain ⟨tokens, scanned, read⟩ := matched_of_compile compiled
  refine ⟨tokens, scanned, read, ?_⟩
  rw [read, ← scan_endMarker scanned, upToEnd, List.takeWhile_eq_self_iff]
  simp

/-- An assignment, and another one behind an end marker. -/
def hiddenTail : String := "x = 5; # y = 6;"

theorem compile_hiddenTail :
    ∃ emission, Compiler.compile programScheme hiddenTail 100 = some (.ok emission) := by
  obtain ⟨emission, compiled, _⟩ := exists_emission (p := fun _ => True) hiddenTail 100
    (by decide +kernel)
  exact ⟨emission, compiled⟩

theorem compile_reads_up_to_endMarker_hiddenTail :
    ∃ tokens, scan hiddenTail = .ok tokens ∧
      Compiler.matched programScheme hiddenTail 100 = upToEnd tokens ∧
      (Compiler.matched programScheme hiddenTail 100 = tokens ↔ '#' ∉ hiddenTail.toList) := by
  obtain ⟨emission, compiled⟩ := compile_hiddenTail
  exact compile_reads_up_to_endMarker compiled

/-- The text is accepted with four of its nine tokens read. -/
theorem hiddenTail_accepted_unread :
    (∃ emission, Compiler.compile programScheme hiddenTail 100 = some (.ok emission)) ∧
      ∃ tokens, scan hiddenTail = .ok tokens ∧ tokens.length = 9 ∧
        (Compiler.matched programScheme hiddenTail 100).length = 4 := by
  have scanned : scan hiddenTail = .ok
      [⟨"$id", some (.text "x")⟩, ⟨"=", none⟩, ⟨"$int", some (.int 5)⟩, ⟨";", none⟩, ⟨"#", none⟩,
        ⟨"$id", some (.text "y")⟩, ⟨"=", none⟩, ⟨"$int", some (.int 6)⟩, ⟨";", none⟩] := by cbv
  exact ⟨compile_hiddenTail, _, scanned, rfl, by decide +kernel⟩

end Pushdown
