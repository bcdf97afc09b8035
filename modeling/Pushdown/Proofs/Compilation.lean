import Pushdown.Proofs.Phrases
import Pushdown.Proofs.Placement
import Pushdown.Proofs.Scanning
import Pushdown.Proofs.Translation

/-! Compilation from text to placed code. A text that is compiled writes a program tree, and whatever
tree it writes, the result is the code of that tree. -/
namespace Pushdown

open Token Grammar Automaton Emitter

/-- Actions that leave alone which symbols are permitted. -/
def KeepsActions {α : Type} (act : Emitter.Action α) : Prop :=
  ∀ e a e', act e = .ok a e' → e'.actions = e.actions

namespace KeepsActions

variable {α β : Type}

theorem pure (a : α) : KeepsActions (pure a) := by
  rintro e _ _ ⟨⟩
  rfl

theorem throw (error : EmitError) : KeepsActions (throw error : Emitter.Action α) := by
  rintro e _ _ ⟨⟩

theorem bind {act : Emitter.Action α} {rest : α → Emitter.Action β} (first : KeepsActions act)
    (second : ∀ a, KeepsActions (rest a)) : KeepsActions (act >>= rest) := by
  intro e b e'' done
  obtain ⟨a, e', firstDone, secondDone⟩ := bind_eq_ok done
  exact (second a e' b e'' secondDone).trans (first e a e' firstDone)

theorem emit (cell : Cell) : KeepsActions (Emitter.emit cell) := by
  rintro e _ _ ⟨⟩
  rfl

theorem here : KeepsActions Emitter.here := by
  rintro e _ _ ⟨⟩
  rfl

theorem pushFrame (frame : Frame) : KeepsActions (Emitter.pushFrame frame) := by
  rintro e _ _ ⟨⟩
  rfl

theorem popFrame (action : Symbol) : KeepsActions (Emitter.popFrame action) := by
  rintro ⟨actions, symbols, program, frames⟩ _ _ done
  cases frames with
  | nil => cases done
  | cons frame rest =>
    cases done
    rfl

theorem entry (x : String) (kind : StorageKind) (size : Nat) :
    KeepsActions (Emitter.entry x kind size) := by
  intro e r e' done
  have entered := entry_entered e x kind size
  rw [done] at entered
  cases entered with
  | known => rfl
  | reserved => rfl

theorem valueOf (action : Symbol) (last : Option Token) : KeepsActions (Emitter.valueOf action last) := by
  unfold Emitter.valueOf
  split
  · exact .pure _
  · exact .throw _

theorem nameOf (action : Symbol) (last : Option Token) : KeepsActions (Emitter.nameOf action last) := by
  refine .bind (.valueOf action last) fun value => ?_
  split
  · exact .pure _
  · exact .throw _

theorem subscriptOf (action : Symbol) (last : Option Token) :
    KeepsActions (Emitter.subscriptOf action last) := by
  refine .bind (.valueOf action last) fun value => ?_
  split
  · split
    · exact .pure _
    · exact .throw _
  · exact .throw _

theorem perform (action : Symbol) (last : Option Token) (duty : Duty) :
    KeepsActions (Emitter.perform action last duty) := by
  cases duty with
  | emit op => exact .emit _
  | lastValue => exact .bind (.valueOf action last) fun _ => .emit _
  | address =>
    exact .bind (.nameOf action last) fun x => .bind (.entry x _ _) fun entry => .emit _
  | goto =>
    exact .bind (.nameOf action last) fun x => .bind (.entry x _ _) fun entry =>
      .bind (.emit _) fun _ => .bind (.emit _) fun _ => .bind (.emit _) fun _ => .emit _
  | label =>
    refine .bind .here fun target => .bind (.nameOf action last) fun x =>
      .bind (.entry x _ _) fun entry => ?_
    rintro e _ e' stored
    rw [onData_store] at stored
    split at stored
    · cases stored
    · cases stored
      rfl
  | push => exact .bind (.valueOf action last) fun _ => .pushFrame _
  | declare =>
    refine .bind (.subscriptOf action last) fun greatest => .bind (.popFrame action) fun frame => ?_
    split
    · exact .bind (.entry _ _ _) fun _ => .pure ()
    · exact .throw _
    · exact .throw _
  | beginIf =>
    exact .bind (.emit _) fun _ => .bind .here fun place => .bind (.emit _) fun _ =>
      .bind (.pushFrame _) fun _ => .emit _
  | endIf =>
    refine .bind (.popFrame action) fun frame => ?_
    split
    · refine .bind .here fun target => ?_
      rintro e _ _ ⟨⟩
      rfl
    · exact .throw _

theorem permitted (action : Symbol) (last : Option Token) :
    KeepsActions (Emitter.permitted action last) := by
  unfold Emitter.permitted
  split
  · exact .perform action last _
  · exact .throw _

end KeepsActions

/-- Actions that an emitter permits are performed without further checks. -/
theorem replay_routine {leaves : List Leaf} {e : Emitter} (last : Option Token)
    (listed : ∀ a, Leaf.action a ∈ leaves → a ∈ e.actions) :
    replay Emitter.routine leaves last e = replay permitted leaves last e := by
  induction leaves generalizing last e with
  | nil => rfl
  | cons leaf rest ih =>
    cases leaf with
    | token t => exact ih (some t) fun a member => listed a (List.mem_cons_of_mem _ member)
    | action a =>
      have performed : Emitter.routine a last e = permitted a last e := by
        have member : a ∈ e.actions := listed a List.mem_cons_self
        rw [Emitter.routine, bind_get, if_pos member]
        rfl
      simp only [replay, bind, EStateM.bind, performed]
      cases done : permitted a last e with
      | error error e' => rfl
      | ok _ e' =>
        have kept := KeepsActions.permitted a last e () e' done
        exact ih last fun b member => kept ▸ listed b (List.mem_cons_of_mem _ member)

theorem Grammar.Derives.action_mem {g : Grammar} {symbols : List Symbol} {leaves : List Leaf}
    (derives : g.Derives symbols leaves) : ∀ a, Leaf.action a ∈ leaves → a ∈ g.actions := by
  induction derives with
  | nil => simp
  | terminal _ _ _ ih => simpa using ih
  | action kind _ ih =>
    intro b member
    rcases List.mem_cons.mp member with same | member
    · cases same
      exact mem_actions kind
    · exact ih b member
  | expand _ _ _ _ _ own ih =>
    intro b member
    rcases List.mem_append.mp member with inner | outer
    · exact own b inner
    · exact ih b outer

/-- Replaying the leaves of a derivation is what they perform, with the checks of the emitter. -/
theorem replay_performs {symbols : List Symbol} {leaves : List Leaf} {act : Emitter.Action Unit}
    {e : Emitter} (permits : e.actions = programScheme.actions)
    (derives : programScheme.Derives symbols leaves) (performs : Performs leaves act)
    (last : Option Token) : ∃ final, replay Emitter.routine leaves last e = match act e with
      | .ok _ e' => .ok final e'
      | .error error e' => .error error e' := by
  obtain ⟨final, performed⟩ := performs last
  have listed := derives.action_mem
  rw [← permits] at listed
  refine ⟨final, ?_⟩
  rw [replay_routine last listed, performed]
  simp only [bind, EStateM.bind]
  cases act e <;> rfl

/-- What an accepting run did is the action of any translation of its tokens. -/
theorem run_translated {tokens : List Token} {e : Emitter} {budget : Nat} {final : Config Emitter}
    {act : Emitter.Action Unit} (permits : e.actions = programScheme.actions)
    (done : Config.run programScheme Emitter.routine budget
      (.init programScheme (.ofTokens tokens) e) = .ok () final)
    (accepted : final.state = .accepted)
    (translates : Translates [programScheme.start] (upToEnd tokens) act) :
    act e = .ok () final.work := by
  obtain ⟨leaves, derives, read, performs⟩ := translates
  obtain ⟨last, replayed⟩ := replay_performs permits derives performs none
  -- The run along the derivation ends, and so does the given one; hence they end alike.
  have result := Config.run_of_derives Emitter.routine programScheme_predicts e derives read
  have stopped : final.state ≠ .running := by simp [accepted]
  rw [replayed] at result
  cases acted : act e with
  | ok _ e' =>
    rw [acted] at result
    obtain ⟨n, other, _, _, rfl, always⟩ := result
    cases Config.run_eventually done stopped always
    rfl
  | error error e' =>
    rw [acted] at result
    obtain ⟨n, other, _, always⟩ := result
    cases Config.run_eventually done stopped always

/-- A symbol on top of the stack is translated, and what is below it stays, if the token behind the
phrase is one that may follow. -/
theorem run_symbol {s : Symbol} {ts after : List Token} {act : Emitter.Action Unit}
    {c : Config Emitter} {below : Stack Symbol} (running : c.state = .running)
    (permits : c.work.actions = programScheme.actions) (stack : c.stack = s :: below)
    (proper : s ≠ bottom) (awaits : c.Awaits (ts ++ after))
    (follows : (after.headD ending).name ∈ programOutlook.follow s)
    (translates : Translates [s] ts act) :
    match act c.work with
    | .ok _ work => ∃ n c', Config.run programScheme Emitter.routine n c = .ok () c' ∧
        c'.state = .running ∧ c'.stack = below ∧ c'.Awaits after ∧ c'.work = work
    | .error error work => ∃ n c', Config.run programScheme Emitter.routine n c = .error error c' ∧
        c'.work = work := by
  obtain ⟨leaves, derives, rfl, performs⟩ := translates
  obtain ⟨last, replayed⟩ := replay_performs permits derives performs c.last
  have absent : bottom ∉ [s] := fun same => proper (List.mem_singleton.mp same).symm
  have passes := Config.passes_of_derives Emitter.routine programScheme_predicts derives running stack
    absent awaits (Outlook.fits_singleton follows)
  unfold Config.Passes at passes
  rw [replayed] at passes
  cases acted : act c.work with
  | ok _ work =>
    rw [acted] at passes
    obtain ⟨n, target, leads, stack, awaits, _, same, running⟩ := passes
    exact ⟨n, target, leads 0, running, stack, awaits, same⟩
  | error error work =>
    rw [acted] at passes
    obtain ⟨n, target, fails, same⟩ := passes
    exact ⟨n, target, fails 0, same⟩

/-- Every action of programs is known. -/
theorem forScheme_programScheme :
    forScheme programScheme = .ok { actions := programScheme.actions } := by
  have known : programScheme.actions.find? (Duty.ofName? · = none) = none := by decide +kernel
  rw [forScheme, known]

theorem emission_start (tokens : List Token) (trace : Option (Array String)) :
    Emission.start programScheme tokens trace =
      .ok ⟨.init programScheme (.ofTokens tokens) { actions := programScheme.actions }, trace⟩ := by
  rw [Emission.start, forScheme_programScheme]
  rfl

theorem compiler_start {text : String} {tokens : List Token} (scanned : scan text = .ok tokens)
    (trace : Option (Array String)) :
    Compiler.start programScheme text trace =
      .ok ⟨.init programScheme (.ofTokens tokens) { actions := programScheme.actions }, trace⟩ := by
  rw [Compiler.start, scanned]
  exact congrArg (Except.mapError .emission) (emission_start tokens trace)

/-- A compilation is an accepting run on the tokens of the text. -/
theorem compile_run {text : String} {budget : Nat} {emission : Emission}
    (compiled : Compiler.compile programScheme text budget = some (.ok emission)) :
    ∃ tokens final, scan text = .ok tokens ∧
      Config.run programScheme Emitter.routine budget
        (.init programScheme (.ofTokens tokens) { actions := programScheme.actions }) = .ok () final ∧
      final.state = .accepted ∧ emission.symbols = final.work.symbols ∧
      emission.program = final.work.program := by
  cases scanned : scan text with
  | error error =>
    rw [Compiler.compile, Compiler.start, scanned] at compiled
    cases compiled
  | ok tokens =>
    simp only [Compiler.compile, compiler_start scanned, Emission.advance] at compiled
    split at compiled
    · cases compiled
    · rename_i run done
      have unwatched := Watched.config_of_run done
      split at compiled
      · cases compiled
      · simp only [Compiler.finish, Option.some.injEq] at compiled
        split at compiled
        · cases compiled
          exact ⟨tokens, run.config, rfl, unwatched, ‹_›, rfl, rfl⟩
        · cases compiled

/-- What a text writes, up to the first end marker in it. -/
def Source.WrittenBy (source : Source) (text : String) : Prop :=
  ∃ tokens, scan text = .ok tokens ∧ Source.Reads (upToEnd tokens) source

theorem compile_written {text : String} {budget : Nat} {emission : Emission}
    (compiled : Compiler.compile programScheme text budget = some (.ok emission)) :
    ∃ source : Source, source.WrittenBy text := by
  obtain ⟨tokens, final, scanned, done, accepted, _⟩ := compile_run compiled
  obtain ⟨leaves, derives, read, _⟩ :=
    Config.derives_of_accepted programScheme_predicts done accepted
  have shaped : ∀ t ∈ Leaf.tokens leaves, t.Shaped := by
    intro t member
    rw [read] at member
    exact scan_shaped scanned t ((List.takeWhile_sublist _).mem member)
  obtain ⟨source, reads⟩ : ∃ source, Source.Reads (Leaf.tokens leaves) source :=
    Phrase.of_derives derives shaped
  exact ⟨source, tokens, scanned, read ▸ reads⟩

/-- An accepting run on the tokens of a text emits whatever program the text writes. -/
theorem emit_of_written {text : String} {tokens : List Token} {budget : Nat}
    {final : Config Emitter} {source : Source} (scanned : scan text = .ok tokens)
    (done : Config.run programScheme Emitter.routine budget
      (.init programScheme (.ofTokens tokens) { actions := programScheme.actions }) = .ok () final)
    (accepted : final.state = .accepted) (written : source.WrittenBy text) :
    source.emit { actions := programScheme.actions } = .ok () final.work := by
  obtain ⟨others, scannedAgain, reads⟩ := written
  obtain rfl : tokens = others := Except.ok.inj (scanned.symm.trans scannedAgain)
  exact run_translated rfl done accepted reads.translates

theorem compile_placed {text : String} {budget : Nat} {emission : Emission} {source : Source}
    (compiled : Compiler.compile programScheme text budget = some (.ok emission))
    (written : source.WrittenBy text) : Placed source emission.symbols emission.program := by
  obtain ⟨tokens, final, scanned, done, accepted, symbols, program⟩ := compile_run compiled
  rw [symbols, program]
  exact Source.placed (emit_of_written scanned done accepted written)

theorem exists_emission {p : Emission → Prop} [DecidablePred p] (text : String) (budget : Nat)
    (found : ((Compiler.compile programScheme text budget).bind Except.toOption).any
      (decide <| p ·) = true) :
    ∃ emission, Compiler.compile programScheme text budget = some (.ok emission) ∧
      p emission := by
  cases compiled : Compiler.compile programScheme text budget with
  | none =>
    rw [compiled] at found
    cases found
  | some outcome =>
    rw [compiled] at found
    cases outcome with
    | error error => cases found
    | ok emission => exact ⟨emission, rfl, of_decide_eq_true found⟩

end Pushdown
