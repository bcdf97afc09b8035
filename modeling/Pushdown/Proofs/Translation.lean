import Pushdown.Proofs.Emission
import Pushdown.Proofs.Languages

/-! Every tree has a derivation that emits its code. The converse of reading: a text that writes a
tree is derived by the scheme, and the actions of the derivation amount to those of the tree. -/
namespace Pushdown

open Token Grammar

/-- The symbols derive the tokens, with actions between them that amount to the given one. -/
def Translates (symbols : List Symbol) (ts : List Token) (act : Emitter.Action Unit) : Prop :=
  ∃ leaves, programScheme.Derives symbols leaves ∧ Leaf.tokens leaves = ts ∧ Performs leaves act

namespace Translates

variable {symbols more : List Symbol} {ts us : List Token} {act next : Emitter.Action Unit}

theorem nil : Translates [] [] (pure ()) := ⟨[], .nil, rfl, .nil⟩

theorem append (first : Translates symbols ts act) (second : Translates more us next) :
    Translates (symbols ++ more) (ts ++ us) (do act; next) := by
  obtain ⟨left, derivesLeft, rfl, performsLeft⟩ := first
  obtain ⟨right, derivesRight, rfl, performsRight⟩ := second
  exact ⟨left ++ right, derivesLeft.append derivesRight, by simp, performsLeft.append performsRight⟩

theorem token (t : Token) (kind : programScheme.kind? t.name = some .terminal)
    (rest : Translates symbols ts act) : Translates (t.name :: symbols) (t :: ts) act := by
  obtain ⟨leaves, derives, rfl, performs⟩ := rest
  exact ⟨.token t :: leaves, .terminal kind rfl derives, rfl, performs.token t⟩

theorem action (a : Symbol) (kind : programScheme.kind? a = some .action)
    (performs : Performs [.action a] act) : Translates [a] [] act :=
  ⟨[.action a], .action kind .nil, rfl, performs⟩

theorem append_emit (translates : Translates symbols ts act) (a : Symbol) {op : Opcode}
    (kind : programScheme.kind? a = some .action) (duty : Duty.ofName? a = some (.emit op)) :
    Translates (symbols ++ [a]) ts (do act; Emitter.emit (.opcode op)) := by
  simpa using translates.append (.action a kind (.emit duty))

theorem append_token (translates : Translates symbols ts act) (t : Token)
    (kind : programScheme.kind? t.name = some .terminal) :
    Translates (symbols ++ [t.name]) (ts ++ [t]) act := by
  simpa using translates.append (.token t kind .nil)

theorem rule (s : Symbol) (translates : Translates symbols ts act)
    (rule : (s, symbols) ∈ programScheme.rules.map fun rule => (rule.left, rule.right)) :
    Translates [s] ts act := by
  obtain ⟨leaves, derives, tokens, performs⟩ := translates
  obtain ⟨listed, member, same⟩ := List.mem_map.mp rule
  obtain ⟨rfl, rfl⟩ := Prod.mk.inj same
  have kind := (programScheme_predicts.declared listed member).1
  exact ⟨leaves, .of_rule kind ⟨listed, member, rfl, rfl⟩ derives, tokens, performs⟩

end Translates

/-- A phrase that goes on with a tail. -/
def Opens (s tail : Symbol) (ts : List Token) (act : Emitter.Action Unit) : Prop :=
  ∀ us next, Translates [tail] us next → Translates [s] (ts ++ us) (do act; next)

namespace Opens

variable {s tail : Symbol} {ts us : List Token} {act : Emitter.Action Unit}

theorem translates (opens : Opens s tail ts act) (empty : Translates [tail] [] (pure ())) :
    Translates [s] ts act := by
  simpa using opens [] _ empty

/-- An operator and its right operand in front of the tail. -/
theorem combine {l r : Expr} {op : Arithmetic} {inner : Symbol} (left : Opens s tail ts l.emit)
    (right : Translates [inner] us r.emit) (sign action : Symbol)
    (terminal : programScheme.kind? sign = some .terminal)
    (kind : programScheme.kind? action = some .action)
    (duty : Duty.ofName? action = some (.emit op.opcode))
    (rule : (tail, [sign, inner, action, tail]) ∈
      programScheme.rules.map fun rule => (rule.left, rule.right)) :
    Opens s tail (ts ++ symbol sign :: us) (Expr.combine op l r).emit := by
  intro vs next rest
  have operand := (right.append_emit action kind duty).append rest
  have whole := left _ _ (.rule tail (operand.token (symbol sign) terminal) rule)
  simpa [Expr.emit] using whole

end Opens

theorem translates_terms_nil : Translates ["terms"] [] (pure ()) := .rule _ .nil (by decide)

theorem translates_facts_nil : Translates ["facts"] [] (pure ()) := .rule _ .nil (by decide)

theorem translates_address (x : String) :
    Translates ["$id", "@lit", "@address_last_token_val"] [identifier x] (Expr.address x).emit :=
  ⟨_, .terminal (by decide) rfl (.action (by decide) (.action (by decide) .nil)), rfl, .address x⟩

theorem translates_literal (n : Int64) :
    Translates ["$int", "@lit", "@last_token_val"] [integer n] (Expr.literal n).emit :=
  ⟨_, .terminal (by decide) rfl (.action (by decide) (.action (by decide) .nil)), rfl, .literal n⟩

/-- What an expression translates to at a level. -/
def Expr.Translated (e : Expr) (ts : List Token) : Expr.Level → Prop
  | .place => Translates ["var"] ts e.emit
  | .factor => Translates ["fact"] ts e.emit
  | .term => Opens "term" "facts" ts e.emit
  | .sum => Opens "expr" "terms" ts e.emit

theorem Expr.Reads.translated {level : Expr.Level} {ts : List Token} {e : Expr}
    (reads : Expr.Reads level ts e) : e.Translated ts level := by
  induction reads with
  | name x =>
    have empty : Translates ["subvar"] [] (pure ()) := .rule _ .nil (by decide)
    have whole := Translates.rule "var" ((translates_address x).append empty) (by decide)
    rw [bind_pure] at whole
    exact whole
  | element x _ ih =>
    have index := (ih.translates translates_terms_nil).append_emit "@add" (by decide) rfl
    have subscript := (index.append_token (symbol ")") (by decide)).token (symbol "(") (by decide)
    exact .rule "var" ((translates_address x).append (.rule "subvar" subscript (by decide)))
      (by decide)
  | «variable» _ ih => exact .rule "fact" (ih.append_emit "@ldi" (by decide) rfl) (by decide)
  | literal n _ => exact .rule "fact" (translates_literal n) (by decide)
  | parens _ ih =>
    have inner := (ih.translates translates_terms_nil).append_token (symbol ")") (by decide)
    exact .rule "fact" (inner.token (symbol "(") (by decide)) (by decide)
  | factor _ ih =>
    intro us next rest
    exact .rule "term" (ih.append rest) (by decide)
  | times _ _ left right =>
    exact left.combine right "*" "@mult" (by decide) (by decide) rfl (by decide)
  | divided _ _ left right =>
    exact left.combine right "/" "@div" (by decide) (by decide) rfl (by decide)
  | term _ ih =>
    intro us next rest
    exact .rule "expr" ((ih.translates translates_facts_nil).append rest) (by decide)
  | positive _ ih =>
    intro us next rest
    have term := (ih.translates translates_facts_nil).append rest
    exact .rule "expr" (term.token (symbol "+") (by decide)) (by decide)
  | negative _ ih =>
    intro us next rest
    have term := ((ih.translates translates_facts_nil).append_emit "@neg" (by decide) rfl).append rest
    exact .rule "expr" (term.token (symbol "-") (by decide)) (by decide)
  | plus _ _ left right =>
    exact left.combine (right.translates translates_facts_nil) "+" "@add" (by decide) (by decide) rfl
      (by decide)
  | minus _ _ left right =>
    exact left.combine (right.translates translates_facts_nil) "-" "@sub" (by decide) (by decide) rfl
      (by decide)

theorem Expr.Reads.translates_sum {ts : List Token} {e : Expr} (reads : Expr.Reads .sum ts e) :
    Translates ["expr"] ts e.emit :=
  Opens.translates reads.translated translates_terms_nil

theorem Expr.Reads.translates_place {ts : List Token} {p : Expr} (reads : Expr.Reads .place ts p) :
    Translates ["var"] ts p.emit :=
  reads.translated

theorem translates_relation {relation : Logic} {spelling : List Symbol} {ts : List Token} {e : Expr}
    (member : (relation, spelling) ∈ Condition.spellings) (operand : Translates ["expr"] ts e.emit) :
    Translates ["relexpr"] (spelling.map symbol ++ ts)
      (do e.emit; Emitter.emit (.opcode relation.opcode)) := by
  simp only [Condition.spellings, List.mem_cons, Prod.mk.injEq, List.not_mem_nil, or_false] at member
  rcases member with ⟨rfl, rfl⟩ | ⟨rfl, rfl⟩ | ⟨rfl, rfl⟩ | ⟨rfl, rfl⟩ | ⟨rfl, rfl⟩ | ⟨rfl, rfl⟩
  · have second := operand.append_emit "@eq" (by decide) rfl
    exact .rule "relexpr" (second.token (symbol "=") (by decide)) (by decide)
  · have second := Translates.rule "grexpr" (operand.append_emit "@gt" (by decide) rfl) (by decide)
    exact .rule "relexpr" (second.token (symbol ">") (by decide)) (by decide)
  · have second := Translates.rule "grexpr" ((operand.append_emit "@ge" (by decide) rfl).token
      (symbol "=") (by decide)) (by decide)
    exact .rule "relexpr" (second.token (symbol ">") (by decide)) (by decide)
  · have second := Translates.rule "lene_expr" (operand.append_emit "@lt" (by decide) rfl) (by decide)
    exact .rule "relexpr" (second.token (symbol "<") (by decide)) (by decide)
  · have second := Translates.rule "lene_expr" ((operand.append_emit "@le" (by decide) rfl).token
      (symbol "=") (by decide)) (by decide)
    exact .rule "relexpr" (second.token (symbol "<") (by decide)) (by decide)
  · have second := Translates.rule "lene_expr" ((operand.append_emit "@ne" (by decide) rfl).token
      (symbol ">") (by decide)) (by decide)
    exact .rule "relexpr" (second.token (symbol "<") (by decide)) (by decide)

theorem Condition.Reads.translates {ts : List Token} {c : Condition} (reads : Condition.Reads ts c) :
    Translates ["logexpr"] ts c.emit := by
  obtain ⟨member, left, right⟩ := reads
  have whole := left.translates_sum.append (translates_relation member right.translates_sum)
  rw [List.append_assoc]
  exact .rule "logexpr" whole (by decide)

/-- The parts of a list, with their commas, if each of them translates. -/
theorem Listing.translates {α : Type} {part : List Token → α → Prop} {ts : List Token} {as : List α}
    {emit : α → Emitter.Action Unit} {item tail : Symbol}
    (parts : ∀ ts a, part ts a → Translates [item] ts (emit a))
    (empty : Translates [tail] [] (pure ()))
    (rule : (tail, [",", item, tail]) ∈
      programScheme.rules.map fun rule => (rule.left, rule.right))
    (listing : Listing part ts as) : Translates [item, tail] ts (as.forM emit) := by
  induction listing with
  | one first => simpa using (parts _ _ first).append empty
  | more first _ ih =>
    have rest := Translates.rule tail (ih.token (symbol ",") (by decide)) rule
    simpa using (parts _ _ first).append rest

theorem Statement.emitAll_single (s : Statement) : Statement.emitAll [s] = s.emit := by
  simp [Statement.emitAll]

/-- What statements translate to as a part of a program. -/
def Statement.Translated (ss : List Statement) (ts : List Token) : Statement.Part → Prop
  | .bare => Translates ["ustate"] ts (Statement.emitAll ss)
  | .single => Translates ["state"] ts (Statement.emitAll ss)
  | .sequence => Translates ["states"] ts (Statement.emitAll ss)

theorem translates_goto (x : String) :
    Translates ["$id", "@goto"] [identifier x] (Emitter.goto x) :=
  ⟨_, .terminal (by decide) rfl (.action (by decide) .nil), rfl, .goto x⟩

theorem translates_label (x : String) :
    Translates ["$id", "@label"] [identifier x] (Emitter.label x) :=
  ⟨_, .terminal (by decide) rfl (.action (by decide) .nil), rfl, .label x⟩

theorem translates_items {ts : List Token} {es : List Expr}
    (items : Listing (Expr.Reads .sum) ts es) :
    Translates ["putlist"] ts (es.forM Expr.emitItem) :=
  .rule "putlist" (items.translates (fun _ _ reads =>
    .rule "putexpr" (reads.translates_sum.append_emit "@out" (by decide) rfl) (by decide))
    (.rule "putexprs" .nil (by decide)) (by decide)) (by decide)

theorem translates_targets {ts : List Token} {ps : List Expr}
    (targets : Listing (Expr.Reads .place) ts ps) :
    Translates ["getlist"] ts (ps.forM Expr.emitTarget) := by
  have parts (ts : List Token) (p : Expr) (reads : Expr.Reads .place ts p) :
      Translates ["getexpr"] ts p.emitTarget := by
    have whole := (reads.translates_place.append_emit "@in" (by decide) rfl).append_emit "@sti"
      (by decide) rfl
    rw [bind_assoc] at whole
    exact .rule "getexpr" whole (by decide)
  exact .rule "getlist" (targets.translates parts (.rule "getexprs" .nil (by decide)) (by decide))
    (by decide)

theorem Statement.Reads.translated {part : Statement.Part} {ts : List Token} {ss : List Statement}
    (reads : Statement.Reads part ts ss) : Statement.Translated ss ts part := by
  induction reads with
  | assign target value =>
    have store := value.translates_sum.append_emit "@sti" (by decide) rfl
    have stored := (store.append_token (symbol ";") (by decide)).token (symbol "=") (by decide)
    have whole := target.translates_place.append stored
    simp only [Translated, emitAll_single]
    simpa [emit] using Translates.rule "ustate" (.rule "assign" whole (by decide)) (by decide)
  | put items =>
    have whole := ((translates_items items).append_token (symbol ";") (by decide)).token
      (symbol "$put") (by decide)
    simp only [Translated, emitAll_single, emit]
    exact .rule "ustate" (.rule "put" whole (by decide)) (by decide)
  | get targets =>
    have whole := ((translates_targets targets).append_token (symbol ";") (by decide)).token
      (symbol "$get") (by decide)
    simp only [Translated, emitAll_single, emit]
    exact .rule "ustate" (.rule "get" whole (by decide)) (by decide)
  | stop =>
    have quit := Translates.nil.append_emit "@quit" (by decide) rfl
    have whole := (quit.append_token (symbol ";") (by decide)).token (symbol "$stop") (by decide)
    simp only [Translated, emitAll_single, emit]
    exact .rule "ustate" (.rule "stop" whole (by decide)) (by decide)
  | goto x =>
    have whole := ((translates_goto x).append_token (symbol ";") (by decide)).token (symbol "$goto")
      (by decide)
    simp only [Translated, emitAll_single, emit]
    exact .rule "ustate" (.rule "goto" whole (by decide)) (by decide)
  | branch condition _ body =>
    have begin := Translates.action "@begin_if" (by decide) .beginIf
    have finish := Translates.action "@end_if" (by decide) .endIf
    have inner := (begin.append (body.append finish)).token (symbol "$then") (by decide)
    have whole := (condition.translates.append inner).token (symbol "$if") (by decide)
    simp only [Translated, emitAll_single] at whole ⊢
    simpa [emit] using Translates.rule "ustate" (.rule "if" whole (by decide)) (by decide)
  | group _ body =>
    have close := (body.append_token (symbol "$end") (by decide)).append_token (symbol ";") (by decide)
    have whole := (close.token (symbol ";") (by decide)).token (symbol "$do") (by decide)
    simp only [Translated, emitAll_single, emit]
    simpa using Translates.rule "ustate" (.rule "group" whole (by decide)) (by decide)
  | plain _ ih => exact .rule "state" ih (by decide)
  | labelled x _ ih =>
    have close := (translates_label x).append_token (symbol ":") (by decide)
    have label := Translates.rule "label" (close.token (symbol ":") (by decide)) (by decide)
    simp only [Translated, emitAll_single, emit] at ih ⊢
    exact .rule "state" (label.append ih) (by decide)
  | nil => exact .rule "states" .nil (by decide)
  | cons _ _ first rest =>
    simp only [Translated, emitAll_single] at first
    exact .rule "states" (first.append rest) (by decide)

theorem Declaration.Reads.translates {ts : List Token} {d : Declaration}
    (reads : Declaration.Reads ts d) : Translates ["declexpr"] ts d.emit := by
  obtain ⟨x, n, positive⟩ := reads
  have whole : Translates ["$id", "@push", "(", "$int", "@declare", ")"]
      [identifier x, symbol "(", integer n, symbol ")"] (Declaration.emit ⟨x, n⟩) :=
    ⟨_, .terminal (by decide) rfl (.action (by decide) (.terminal (by decide) rfl (.terminal
      (by decide) rfl (.action (by decide) (.terminal (by decide) rfl .nil))))), rfl,
      .declare x n positive⟩
  exact .rule "declexpr" whole (by decide)

/-- Declarations in front of statements, which the scheme translates apart. -/
theorem Source.Reads.parts {ts : List Token} {source : Source} (reads : Source.Reads ts source) :
    ∃ ds ss, ts = ds ++ ss ∧ Translates ["decls"] ds (source.declarations.forM Declaration.emit) ∧
      Translates ["states"] ss (Statement.emitAll source.statements) := by
  induction reads with
  | statements reads => exact ⟨[], _, rfl, .rule "decls" .nil (by decide), reads.translated⟩
  | @declare ts us declarations source arrays _ ih =>
    obtain ⟨ds, ss, rfl, decls, states⟩ := ih
    have list := Translates.rule "declist" (arrays.translates (fun _ _ reads => reads.translates)
      (.rule "declexprs" .nil (by decide)) (by decide)) (by decide)
    have whole := ((list.append_token (symbol ";") (by decide)).append decls).token
      (symbol "$declare") (by decide)
    refine ⟨symbol "$declare" :: (ts ++ [symbol ";"] ++ ds), ss, by simp, ?_, states⟩
    simpa using Translates.rule "decls" whole (by decide)

theorem Source.Reads.translates {ts : List Token} {source : Source} (reads : Source.Reads ts source) :
    Translates ["program"] ts source.emit := by
  obtain ⟨ds, ss, rfl, decls, states⟩ := reads.parts
  have whole := decls.append (states.append_emit "@quit" (by decide) rfl)
  exact .rule "program" whole (by decide)

end Pushdown
