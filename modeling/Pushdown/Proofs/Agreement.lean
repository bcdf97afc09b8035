import Pushdown.Proofs.Trees

/-! Acceptance, trees and emission agree. What actions do has no influence on the steps of a run, as
long as they succeed; so emission comes to the verdict of the automaton whose actions do nothing, and
takes the steps that the tree is folded from. The actions it performs are then those of the tree from
left to right, and each of them gets the token before it. -/
namespace Pushdown

open Automaton

namespace Automaton

variable {σ τ ε δ : Type} {g : Grammar}

/-- The same configuration with other work for the actions. -/
def Config.withWork (c : Config σ) (work : τ) : Config τ :=
  ⟨c.stack, c.source, c.current, c.last, c.state, work⟩

@[simp] theorem Config.withWork_next (c : Config σ) (work : τ) : (c.withWork work).next = c.next := rfl

/-- Where an action of the first routine succeeds, so does the other one, and related works stay
related. -/
def Mimics (related : σ → τ → Prop) (routine : Routine σ ε) (other : Routine τ δ) : Prop :=
  ∀ a last s s' t, related s t → routine a last s = .ok () s' →
    ∃ t', other a last t = .ok () t' ∧ related s' t'

namespace Mimics

variable {related : σ → τ → Prop} {routine : Routine σ ε} {other : Routine τ δ}

/-- The other routine goes through the same cycle. -/
theorem cycle (mimics : Mimics related routine other) {c next : Config σ} {step : Step} {t : τ}
    (works : related c.work t) (cycled : Config.cycle g routine c = .ok step next) :
    ∃ t', Config.cycle g other (c.withWork t) = .ok step (next.withWork t') ∧
      related next.work t' := by
  cases stack : c.stack with
  | nil =>
    simp only [Config.cycle, stack] at cycled
    cases cycled
    exact ⟨t, by simp [Config.cycle, Config.withWork, Config.reject, stack], works⟩
  | cons top rest =>
    have stackOther : (c.withWork t).stack = top :: rest := stack
    simp only [Config.cycle, stack] at cycled
    by_cases isBottom : top = bottom
    · rw [if_pos isBottom] at cycled
      split at cycled
      · rename_i ended
        cases cycled
        exact ⟨t, by simp [Config.cycle, stackOther, isBottom, ended]; rfl, works⟩
      · rename_i more
        cases cycled
        exact ⟨t, by simp [Config.cycle, stackOther, isBottom, more]; rfl, works⟩
    · rw [if_neg isBottom] at cycled
      split at cycled
      · rename_i kind
        split at cycled
        · rename_i selected
          cases cycled
          exact ⟨t, by simp [Config.cycle, stackOther, isBottom, kind, selected]; rfl, works⟩
        · rename_i unpredicted
          cases cycled
          exact ⟨t, by simp [Config.cycle, stackOther, isBottom, kind, unpredicted]; rfl, works⟩
      · rename_i kind
        split at cycled
        · rename_i same
          cases cycled
          subst same
          exact ⟨t, by simp [Config.cycle, stackOther, isBottom, kind]; rfl, works⟩
        · rename_i unexpected
          cases cycled
          exact ⟨t, by simp [Config.cycle, stackOther, isBottom, kind, unexpected]; rfl, works⟩
      · rename_i kind
        split at cycled
        · rename_i s' performed
          cases cycled
          obtain ⟨t', performedOther, works⟩ := mimics top c.last c.work s' t works performed
          refine ⟨t', ?_, works⟩
          simp [Config.cycle, Config.withWork, stack, isBottom, kind, performedOther]
        · cases cycled
      · rename_i unknown
        cases cycled
        exact ⟨t, by simp [Config.cycle, stackOther, isBottom, unknown]; rfl, works⟩

/-- It runs through the same steps to the same configuration. -/
theorem run (mimics : Mimics related routine other) {budget : Nat} {c final : Config σ} {t : τ}
    (works : related c.work t) (done : Config.run g routine budget c = .ok () final) :
    ∃ t', Config.run g other budget (c.withWork t) = .ok () (final.withWork t') ∧
      related final.work t' ∧
      Config.steps g other budget (c.withWork t) = Config.steps g routine budget c := by
  induction budget generalizing c t with
  | zero =>
    cases done
    exact ⟨t, rfl, works, rfl⟩
  | succ budget ih =>
    by_cases running : c.state = .running
    · have runningOther : (c.withWork t).state = .running := running
      rw [Config.run_running running] at done
      rw [Config.run_running runningOther, Config.steps_running running,
        Config.steps_running runningOther]
      cases cycled : Config.cycle g routine c with
      | error e c' =>
        rw [cycled] at done
        cases done
      | ok step next =>
        rw [cycled] at done
        obtain ⟨t', cycledOther, works⟩ := mimics.cycle works cycled
        obtain ⟨t', ran, works, steps⟩ := ih works done
        rw [cycledOther]
        exact ⟨t', ran, works, congrArg (step :: ·) steps⟩
    · have stoppedOther : (c.withWork t).state ≠ .running := running
      rw [Config.run_stopped running] at done
      cases done
      rw [Config.run_stopped stoppedOther, Config.steps_stopped running,
        Config.steps_stopped stoppedOther]
      exact ⟨t, rfl, works, rfl⟩

end Mimics

/-- Actions that do nothing mimic any others. -/
theorem mimics_silent (routine : Routine σ ε) : Mimics (fun _ _ => True) routine silent :=
  fun _ _ _ _ _ _ _ => ⟨(), rfl, trivial⟩

/-- The verdict of the automaton is the state in which any routine that does not fail comes to rest,
and it is reached by the same steps. -/
theorem verdict_eq {routine : Routine σ ε} {source : TokenSource} {work : σ} {budget : Nat}
    {final : Config σ} (done : Config.run g routine budget (.init g source work) = .ok () final) :
    verdict g source budget = final.state ∧
      Config.steps g silent budget (.init g source ()) =
        Config.steps g routine budget (.init g source work) := by
  obtain ⟨_, ran, _, steps⟩ := (mimics_silent routine).run (t := ()) trivial done
  obtain ⟨last, again, state⟩ := verdict_run g source budget
  cases ran.symm.trans again
  exact ⟨state, steps⟩

/-- A routine that keeps a record of its calls: each action with the token matched last. -/
def recorded (routine : Routine σ ε) : Routine (σ × List (Symbol × Option Token)) ε :=
  fun a last (work, record) =>
    match routine a last work with
    | .ok _ work => .ok () (work, record ++ [(a, last)])
    | .error e work => .error e (work, record)

theorem mimics_recorded (routine : Routine σ ε) :
    Mimics (fun work both => both.1 = work) routine (recorded routine) := by
  rintro a last s s' ⟨_, record⟩ rfl performed
  exact ⟨(s', record ++ [(a, last)]), by simp only [recorded, performed], rfl⟩

end Automaton

/-- The actions among some leaves, each with the nearest token to its left. -/
def Leaf.calls : Option Token → List Leaf → List (Symbol × Option Token)
  | _, [] => []
  | _, .token t :: leaves => calls (some t) leaves
  | last, .action a :: leaves => (a, last) :: calls last leaves

namespace Automaton

variable {σ ε : Type} {routine : Routine σ ε}

/-- What is recorded of a replay are the actions among its leaves. -/
theorem replay_recorded {leaves : List Leaf} {last last' : Option Token} {work work' : σ}
    {record record' : List (Symbol × Option Token)}
    (replayed : replay (recorded routine) leaves last (work, record) = .ok last' (work', record')) :
    record' = record ++ Leaf.calls last leaves := by
  induction leaves generalizing last work record with
  | nil =>
    cases replayed
    exact (List.append_nil _).symm
  | cons leaf leaves ih =>
    cases leaf with
    | token t => exact ih replayed
    | action a =>
      simp only [replay, bind, EStateM.bind, recorded] at replayed
      cases performed : routine a last work with
      | error e work =>
        rw [performed] at replayed
        cases replayed
      | ok _ work =>
        rw [performed] at replayed
        rw [ih replayed]
        simp [Leaf.calls]

end Automaton

theorem Emission.start_eq_ok {g : Grammar} {tokens : List Token} {trace : Option (Array String)}
    {run : Emission.Run} (started : Emission.start g tokens trace = .ok run) :
    ∃ emitter, run = ⟨.init g (.ofTokens tokens) emitter, trace⟩ := by
  unfold Emission.start at started
  cases made : Emitter.forScheme g with
  | error e =>
    rw [made] at started
    cases started
  | ok emitter =>
    rw [made] at started
    cases started
    exact ⟨emitter, rfl⟩

/-- Emission accepts exactly if the automaton does, and then the actions that it performed, each with
the token matched last at that time, are those of the tree from left to right. -/
theorem emission_agrees_with_tree {g : Grammar} {tokens : List Token} {trace : Option (Array String)}
    {budget : Nat} {start final : Emission.Run} (checked : g.check = .ok ())
    (rules : ∀ rule ∈ g.rules, bottom ∉ rule.right)
    (started : Emission.start g tokens trace = .ok start)
    (done : Emission.advance g budget start = .ok () final) :
    (Emission.ofRun final).state = verdict g (.ofTokens tokens) budget ∧
    ((Emission.ofRun final).state = .accepted ↔
      (Tree.build? g (.ofTokens tokens) budget).isSome = true) ∧
    ∀ t, Tree.build? g (.ofTokens tokens) budget = some t →
      Config.run g (recorded Emitter.routine) budget
          (.init g (.ofTokens tokens) (start.config.work, [])) =
        .ok () (final.config.withWork (final.config.work, Leaf.calls none (t.leaves g))) := by
  obtain ⟨emitter, rfl⟩ := Emission.start_eq_ok started
  have ran : Config.run g Emitter.routine budget (.init g (.ofTokens tokens) emitter) =
      .ok () final.config := Watched.config_of_run done
  obtain ⟨agrees, steps⟩ := verdict_eq ran
  refine ⟨agrees.symm, ?_, fun t built => ?_⟩
  · rw [Tree.isSome_build?_iff, agrees]
    rfl
  · obtain ⟨accepted, root⟩ := Tree.build?_eq_some_iff.mp built
    obtain ⟨⟨_, record⟩, ranRecorded, rfl, stepsRecorded⟩ :=
      (mimics_recorded Emitter.routine).run (t := (emitter, [])) rfl ran
    have traces := Config.run_init_traces rules
      (show Config.run g (recorded Emitter.routine) budget (.init g (.ofTokens tokens) (emitter, [])) =
        _ from ranRecorded) (agrees ▸ accepted)
    obtain ⟨_, _, _, leaves⟩ := traces.tree (Grammar.start_kind checked)
    have same : Config.steps g (recorded Emitter.routine) budget
        (.init g (.ofTokens tokens) (emitter, [])) =
        Config.steps g silent budget (.init g (.ofTokens tokens) ()) := stepsRecorded.trans steps.symm
    have recorded := replay_recorded traces.replays
    rw [← leaves, same, root] at recorded
    rw [← List.nil_append (Leaf.calls none (t.leaves g)), ← recorded]
    exact ranRecorded

/-- Words with commas between them, whose actions emit code before the first word, behind an empty
rest, and two in a row. -/
def wordScheme : Grammar where
  start := "list"
  terminals := ["word", ",", "#"]
  nonterminals := ["list", "more"]
  actions := ["@in", "@lit", "@last_token_val", "@out"]
  rules :=
    [⟨"list", ["@in", "word", "@lit", "@last_token_val", "more", "@out"], ["word"]⟩,
     ⟨"more", [",", "@in", "word", "more"], [","]⟩,
     ⟨"more", [], ["#"]⟩]

theorem emission_agrees_with_tree_twoWords :
    wordScheme.check = .ok () ∧ (∀ rule ∈ wordScheme.rules, bottom ∉ rule.right) ∧
      ∃ start final t, Emission.start wordScheme twoWords none = .ok start ∧
        Emission.advance wordScheme 15 start = .ok () final ∧
        Tree.build? wordScheme (.ofTokens twoWords) 15 = some t ∧
        (Emission.ofRun final).state = verdict wordScheme (.ofTokens twoWords) 15 ∧
        Config.run wordScheme (recorded Emitter.routine) 15
            (.init wordScheme (.ofTokens twoWords) (start.config.work, [])) =
          .ok () (final.config.withWork (final.config.work, Leaf.calls none (t.leaves wordScheme))) ∧
        Leaf.calls none (t.leaves wordScheme) =
          [("@in", none), ("@lit", some ⟨"word", some (.text "this")⟩),
           ("@last_token_val", some ⟨"word", some (.text "this")⟩), ("@in", some ⟨",", none⟩),
           ("@out", some ⟨"word", some (.text "that")⟩)] := by
  have checked : wordScheme.check = .ok () := by decide +kernel
  have rules : ∀ rule ∈ wordScheme.rules, bottom ∉ rule.right := by decide +kernel
  obtain ⟨start, final, started, done⟩ : ∃ start final,
      Emission.start wordScheme twoWords none = .ok start ∧
        Emission.advance wordScheme 15 start = .ok () final := ⟨_, _, rfl, rfl⟩
  obtain ⟨t, built, calls⟩ : ∃ t, Tree.build? wordScheme (.ofTokens twoWords) 15 = some t ∧
      Leaf.calls none (t.leaves wordScheme) = _ := ⟨_, rfl, rfl⟩
  obtain ⟨state, _, performed⟩ := emission_agrees_with_tree checked rules started done
  exact ⟨checked, rules, start, final, t, started, done, built, state, performed t built, calls⟩

end Pushdown
