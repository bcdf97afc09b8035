import Pushdown.Proofs.Compilation
import Pushdown.Proofs.Execution

/-! Compilation of expressions. Whatever follows the symbol for an expression on the stack of the
automaton, and whatever the emitter has done before, the code that it emits for the expression
computes the value of the tree that the tokens write. -/
namespace Pushdown

open Token Grammar Automaton Emitter

/-- No cell is left for a new name. -/
def Emitter.Full (e : Emitter) : Prop := e.program.data.capacity ≤ e.program.data.cells.size

/-- Emission of an expression fails only for lack of memory. -/
theorem Expr.emit_error {e : Expr} {s t : Emitter} {error : EmitError}
    (failed : e.emit s = .error error t) : error = .memory .outOfMemory ∧ t.Full := by
  induction e generalizing s with
  | literal n => cases failed
  | address x =>
    obtain failed | ⟨_, s₁, _, failed⟩ := bind_eq_error failed
    · cases failed
    obtain failed | ⟨_, s₂, _, failed⟩ := bind_eq_error failed
    · have entered := entry_entered s₁ x .scalar 1
      rw [failed] at entered
      cases entered with
      | full room => exact ⟨rfl, Nat.le_of_lt_succ room⟩
    · cases failed
  | fetch place ih | negate place ih =>
    obtain failed | ⟨_, s₁, _, failed⟩ := bind_eq_error failed
    · exact ih failed
    · cases failed
  | combine op l r left right =>
    obtain failed | ⟨_, s₁, _, failed⟩ := bind_eq_error failed
    · exact left failed
    obtain failed | ⟨_, s₂, _, failed⟩ := bind_eq_error failed
    · exact right failed
    · cases failed

/-- The code computes the value of an expression: from its first cell, on any stack and in any
memory, the machine comes to the place behind it with the value pushed and all else as it was, or
stops with the fault of the evaluation. -/
def Computes (fragment : List Cell) (address : String → Nat) (e : Expr) : Prop :=
  ∀ m : Machine, m.running = true → Machine.Lies m.code m.counter fragment →
    match e.eval address m.memory with
    | .ok v => ∃ n, m.run n = .ok ()
        { m with stack := v :: m.stack, counter := m.counter + fragment.length }
    | .error kind => ∃ n place final, m.run n = .error ⟨place, kind⟩ final ∧ final.world = m.world

theorem Expr.code_computes (address : String → Nat) (e : Expr) :
    Computes (e.code address) address e := by
  intro m running lies
  have arrives := e.arrives address running lies
  rw [length_code]
  cases value : e.eval address m.memory with
  | ok v =>
    rw [value] at arrives
    obtain ⟨n, leads⟩ := arrives
    exact ⟨n, leads.run_eq⟩
  | error kind =>
    rw [value] at arrives
    obtain ⟨n, place, final, faults, world⟩ := arrives
    exact ⟨n, place, final, faults.run_eq, world⟩

/-- The tokens are translated into code for an expression, wherever the symbol for expressions is on
top of the stack and a token behind them ends the expression. -/
def Compiles (ts : List Token) (e : Expr) : Prop :=
  ∀ (c : Config Emitter) (below : Stack Symbol) (after : List Token),
    c.state = .running → c.work.actions = programScheme.actions → c.stack = "expr" :: below →
    c.Awaits (ts ++ after) → (after.headD ending).name ∈ expressionEnds →
    (∃ n c', c.run programScheme routine n = .error (.memory .outOfMemory) c' ∧ c'.work.Full) ∨
    ∃ n c' fragment, c.run programScheme routine n = .ok () c' ∧ c'.state = .running ∧
      c'.stack = below ∧ c'.Awaits after ∧
      c'.work.program.code.toList = c.work.program.code.toList ++ fragment ∧
      Computes fragment c'.work.symbols.addressOf e

theorem Expr.Reads.compiles {ts : List Token} {e : Expr} (reads : Expr.Reads .sum ts e) :
    Compiles ts e := by
  intro c below after running permits stack awaits follows
  have result := run_symbol running permits stack (by decide) awaits follows reads.translates_sum
  cases emitted : e.emit c.work with
  | ok _ work =>
    rw [emitted] at result
    obtain ⟨n, c', done, running, stack, awaits, rfl⟩ := result
    have adds := e.emits c.work _ emitted
    exact .inr ⟨n, c', _, done, running, stack, awaits,
      adds.code _ (SymbolTable.agrees_addressOf _), e.code_computes _⟩
  | error error work =>
    rw [emitted] at result
    obtain ⟨n, c', failed, rfl⟩ := result
    obtain ⟨rfl, full⟩ := Expr.emit_error emitted
    exact .inl ⟨n, c', failed, full⟩

theorem plainForm_expr : programScheme.plainForm ["expr"] = [.nonterminal "expr"] :=
  plainForm_nonterminal (by decide) []

/-- What is derived from the symbol for expressions writes a tree, and whatever tree it writes, the
code emitted for it computes the value of that tree. -/
theorem derived_expression_compiles (ts : List Token) (shaped : ∀ t ∈ ts, t.Shaped)
    (derivable : programScheme.plain.Derives [.nonterminal "expr"] (plainWord ts)) :
    (∃ e, Expr.Reads .sum ts e) ∧ ∀ e, Expr.Reads .sum ts e → Compiles ts e := by
  refine ⟨?_, fun e reads => reads.compiles⟩
  have form : programScheme.plain.Derives (programScheme.plainForm ["expr"]) (plainWord ts) := by
    rw [plainForm_expr]
    exact derivable
  obtain ⟨leaves, derives, rfl⟩ :=
    (plain_derives_iff programScheme_predicts.declared (by decide)).mp form
  exact Phrase.of_derives derives shaped

/-- A sign, a subscript, and two operators of different levels. -/
def signedSum : List Token :=
  [symbol "-", identifier "a", symbol "+", identifier "b", symbol "(", integer 2, symbol ")",
   symbol "*", identifier "c"]

/-- The sign belongs to the first term, and the product is the second. -/
def signedSumTree : Expr :=
  .combine .add (.negate (.fetch (.address "a")))
    (.combine .mul (.fetch (.combine .add (.address "b") (.literal 2))) (.fetch (.address "c")))

theorem signedSum_reads : Expr.Reads .sum signedSum signedSumTree :=
  .plus (.negative (.factor (.variable (.name "a"))))
    (.times (.factor (.variable (.element "b" (.term (.factor (.literal 2 (by decide)))))))
      (.variable (.name "c")))

theorem signedSum_shaped : ∀ t ∈ signedSum, t.Shaped := by
  simp only [signedSum, List.forall_mem_cons]
  exact ⟨.symbol _ (by decide) (by decide), .identifier _, .symbol _ (by decide) (by decide),
    .identifier _, .symbol _ (by decide) (by decide), .integer _ (by decide),
    .symbol _ (by decide) (by decide), .symbol _ (by decide) (by decide), .identifier _, by simp⟩

theorem derived_expression_compiles_signedSum :
    programScheme.plain.Derives [.nonterminal "expr"] (plainWord signedSum) ∧
      (∃ e, Expr.Reads .sum signedSum e) ∧ Compiles signedSum signedSumTree := by
  obtain ⟨leaves, derives, read, _⟩ := signedSum_reads.translates_sum
  have derivable := derives.plain
  rw [plainForm_expr, read] at derivable
  obtain ⟨written, compiles⟩ := derived_expression_compiles signedSum signedSum_shaped derivable
  exact ⟨derivable, written, compiles signedSumTree signedSum_reads⟩

end Pushdown
