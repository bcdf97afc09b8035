import Pushdown.Grammar.Programs
import Pushdown.Proofs.Derivation
import Pushdown.Proofs.Syntax

/-! Every derivation of the scheme for programs writes a tree. The tokens of a symbol are a phrase,
and each rule makes a phrase of its left side from those of its right side. A nonterminal that ends a
rule, such as the further terms of a sum, says what it makes of the phrase in front of it; in this
way the rules, which lean to the right, build trees that lean to the left. -/
namespace Pushdown

open Token Grammar

/-- What is to come of a comparison whose spelling has begun. -/
def Condition.Continues (begun : List Symbol) (ts : List Token) : Prop :=
  ∃ relation spelling us e, (relation, begun ++ spelling) ∈ spellings ∧
    ts = spelling.map symbol ++ us ∧ Expr.Reads .sum us e

/-- What is to come of a list whose first part is there. -/
def Listing.Continues {α : Type} (part : List Token → α → Prop) (ts : List Token) : Prop :=
  ∀ us a, part us a → ∃ as, Listing part (us ++ ts) as

/-- What the tokens of a symbol are. -/
def Phrase (s : Symbol) (ts : List Token) : Prop :=
  match s with
  | "program" => ∃ source, Source.Reads ts source
  | "decls" => ∀ us ss, Statement.Reads .sequence us ss → ∃ source, Source.Reads (ts ++ us) source
  | "declist" => ∃ ds, Listing Declaration.Reads ts ds
  | "declexprs" => Listing.Continues Declaration.Reads ts
  | "declexpr" => ∃ d, Declaration.Reads ts d
  | "states" => ∃ ss, Statement.Reads .sequence ts ss
  | "state" => ∃ s, Statement.Reads .single ts [s]
  | "label" => ∃ x, ts = [symbol ":", identifier x, symbol ":"]
  | "ustate" | "assign" | "put" | "get" | "stop" | "goto" | "if" | "group" =>
    ∃ s, Statement.Reads .bare ts [s]
  | "logexpr" => ∃ c, Condition.Reads ts c
  | "relexpr" => Condition.Continues [] ts
  | "grexpr" => Condition.Continues [">"] ts
  | "lene_expr" => Condition.Continues ["<"] ts
  | "putlist" => ∃ es, Listing (Expr.Reads .sum) ts es
  | "putexprs" => Listing.Continues (Expr.Reads .sum) ts
  | "expr" | "putexpr" => ∃ e, Expr.Reads .sum ts e
  | "getlist" => ∃ ps, Listing (Expr.Reads .place) ts ps
  | "getexprs" => Listing.Continues (Expr.Reads .place) ts
  | "var" | "getexpr" => ∃ p, Expr.Reads .place ts p
  | "subvar" => ∀ x, ∃ p, Expr.Reads .place (identifier x :: ts) p
  | "terms" => ∀ us e, Expr.Reads .sum us e → ∃ e', Expr.Reads .sum (us ++ ts) e'
  | "term" => ∃ e, Expr.Reads .term ts e
  | "facts" => ∀ us e, Expr.Reads .term us e → ∃ e', Expr.Reads .term (us ++ ts) e'
  | "fact" => ∃ e, Expr.Reads .factor ts e
  | "$id" => ∃ x, ts = [identifier x]
  | "$int" => ∃ n, 0 ≤ n ∧ ts = [integer n]
  | "@add" | "@mult" | "@sub" | "@div" | "@neg" | "@begin_if" | "@end_if" | "@lt" | "@gt" | "@eq"
  | "@le" | "@ge" | "@ne" | "@goto" | "@label" | "@push" | "@declare" | "@in" | "@out" | "@quit"
  | "@lit" | "@last_token_val" | "@address_last_token_val" | "@sti" | "@ldi" => ts = []
  | _ => ts = [symbol s]

section Continuations

variable {α : Type} {part : List Token → α → Prop} {ts us : List Token}

theorem Listing.Continues.nil : Continues part [] := by
  intro us a first
  exact ⟨[a], by simpa using Listing.one first⟩

theorem Listing.Continues.cons (next : ∃ a, part us a) (more : Continues part ts) :
    Continues part (symbol "," :: (us ++ ts)) := by
  obtain ⟨b, next⟩ := next
  obtain ⟨bs, listing⟩ := more us b next
  intro vs a first
  exact ⟨a :: bs, .more first listing⟩

theorem Listing.Continues.listing (more : Continues part ts) (first : ∃ a, part us a) :
    ∃ as, Listing part (us ++ ts) as := by
  obtain ⟨a, first⟩ := first
  exact more us a first

theorem Condition.Continues.spell {begun : List Symbol} {s : Symbol}
    (rest : Continues (begun ++ [s]) ts) : Continues begun (symbol s :: ts) := by
  obtain ⟨relation, spelling, us, e, member, rfl, reads⟩ := rest
  exact ⟨relation, s :: spelling, us, e, by simpa using member, rfl, reads⟩

theorem Condition.Continues.close {begun : List Symbol} (relation : Logic)
    (member : (relation, begun) ∈ spellings) (operand : ∃ e, Expr.Reads .sum ts e) :
    Continues begun ts := by
  obtain ⟨e, reads⟩ := operand
  exact ⟨relation, [], ts, e, by simpa using member, rfl, reads⟩

end Continuations

namespace Phrase

variable {ts : List Token}

/-- A rule with a single symbol on the right side. -/
theorem unit {s t : Symbol} (same : Phrase t = Phrase s) : Yields Phrase [t] ts → Phrase s ts := by
  rintro ⟨own, _, rfl, phrase, rfl⟩
  rw [List.append_nil, ← same]
  exact phrase

theorem expr : Yields Phrase ["term", "terms"] ts → Phrase "expr" ts := by
  rintro ⟨_, _, rfl, ⟨e, term⟩, _, _, rfl, more, rfl⟩
  obtain ⟨sum, reads⟩ := more _ e (.term term)
  exact ⟨sum, by simpa using reads⟩

theorem expr_positive : Yields Phrase ["+", "term", "terms"] ts → Phrase "expr" ts := by
  rintro ⟨_, _, rfl, rfl, _, _, rfl, ⟨e, term⟩, _, _, rfl, more, rfl⟩
  obtain ⟨sum, reads⟩ := more _ e (.positive term)
  exact ⟨sum, by simpa using reads⟩

theorem expr_negative : Yields Phrase ["-", "term", "@neg", "terms"] ts → Phrase "expr" ts := by
  rintro ⟨_, _, rfl, rfl, _, _, rfl, ⟨e, term⟩, _, _, rfl, rfl, _, _, rfl, more, rfl⟩
  obtain ⟨sum, reads⟩ := more _ _ (.negative term)
  exact ⟨sum, by simpa using reads⟩

theorem terms_plus : Yields Phrase ["+", "term", "@add", "terms"] ts → Phrase "terms" ts := by
  rintro ⟨_, _, rfl, rfl, _, _, rfl, ⟨r, term⟩, _, _, rfl, rfl, _, _, rfl, more, rfl⟩ us l sum
  simpa using more _ _ (.plus sum term)

theorem terms_minus : Yields Phrase ["-", "term", "@sub", "terms"] ts → Phrase "terms" ts := by
  rintro ⟨_, _, rfl, rfl, _, _, rfl, ⟨r, term⟩, _, _, rfl, rfl, _, _, rfl, more, rfl⟩ us l sum
  simpa using more _ _ (.minus sum term)

theorem terms_nil : Yields Phrase [] ts → Phrase "terms" ts := by
  rintro rfl us e sum
  exact ⟨e, by simpa using sum⟩

theorem term : Yields Phrase ["fact", "facts"] ts → Phrase "term" ts := by
  rintro ⟨_, _, rfl, ⟨e, factor⟩, _, _, rfl, more, rfl⟩
  obtain ⟨product, reads⟩ := more _ e (.factor factor)
  exact ⟨product, by simpa using reads⟩

theorem facts_times : Yields Phrase ["*", "fact", "@mult", "facts"] ts → Phrase "facts" ts := by
  rintro ⟨_, _, rfl, rfl, _, _, rfl, ⟨r, factor⟩, _, _, rfl, rfl, _, _, rfl, more, rfl⟩ us l term
  simpa using more _ _ (.times term factor)

theorem facts_divided : Yields Phrase ["/", "fact", "@div", "facts"] ts → Phrase "facts" ts := by
  rintro ⟨_, _, rfl, rfl, _, _, rfl, ⟨r, factor⟩, _, _, rfl, rfl, _, _, rfl, more, rfl⟩ us l term
  simpa using more _ _ (.divided term factor)

theorem facts_nil : Yields Phrase [] ts → Phrase "facts" ts := by
  rintro rfl us e term
  exact ⟨e, by simpa using term⟩

theorem fact_variable : Yields Phrase ["var", "@ldi"] ts → Phrase "fact" ts := by
  rintro ⟨_, _, rfl, ⟨p, place⟩, _, _, rfl, rfl, rfl⟩
  exact ⟨_, by simpa using Expr.Reads.variable place⟩

theorem fact_literal : Yields Phrase ["$int", "@lit", "@last_token_val"] ts → Phrase "fact" ts := by
  rintro ⟨_, _, rfl, ⟨n, positive, rfl⟩, _, _, rfl, rfl, _, _, rfl, rfl, rfl⟩
  exact ⟨_, .literal n positive⟩

theorem fact_parens : Yields Phrase ["(", "expr", ")"] ts → Phrase "fact" ts := by
  rintro ⟨_, _, rfl, rfl, _, _, rfl, ⟨e, sum⟩, _, _, rfl, rfl, rfl⟩
  exact ⟨e, by simpa using Expr.Reads.parens sum⟩

theorem var :
    Yields Phrase ["$id", "@lit", "@address_last_token_val", "subvar"] ts → Phrase "var" ts := by
  rintro ⟨_, _, rfl, ⟨x, rfl⟩, _, _, rfl, rfl, _, _, rfl, rfl, _, _, rfl, place, rfl⟩
  obtain ⟨p, reads⟩ := place x
  exact ⟨p, by simpa using reads⟩

theorem subvar : Yields Phrase ["(", "expr", "@add", ")"] ts → Phrase "subvar" ts := by
  rintro ⟨_, _, rfl, rfl, _, _, rfl, ⟨e, index⟩, _, _, rfl, rfl, _, _, rfl, rfl, rfl⟩ x
  exact ⟨_, by simpa using Expr.Reads.element x index⟩

theorem subvar_nil : Yields Phrase [] ts → Phrase "subvar" ts := by
  rintro rfl x
  exact ⟨_, .name x⟩

theorem logexpr : Yields Phrase ["expr", "relexpr"] ts → Phrase "logexpr" ts := by
  rintro ⟨_, _, rfl, ⟨l, left⟩, _, _, rfl, ⟨relation, spelling, us, r, member, rfl, right⟩, rfl⟩
  exact ⟨_, by simpa using Condition.Reads.compare member left right⟩

/-- The first symbol of a comparison that is written with two. -/
theorem continues_spell {s t : Symbol} {begun : List Symbol}
    (symbol : Phrase s = fun ts => ts = [symbol s])
    (rest : Phrase t = Condition.Continues (begun ++ [s])) :
    Yields Phrase [s, t] ts → Condition.Continues begun ts := by
  rintro ⟨_, _, rfl, first, _, _, rfl, second, rfl⟩
  rw [symbol] at first
  rw [rest] at second
  subst first
  simpa using second.spell

/-- A comparison that ends with a symbol and the second operand. -/
theorem continues_symbol {s a : Symbol} {begun : List Symbol} (relation : Logic)
    (member : (relation, begun ++ [s]) ∈ Condition.spellings)
    (symbol : Phrase s = fun ts => ts = [symbol s]) (action : Phrase a = fun ts => ts = []) :
    Yields Phrase [s, "expr", a] ts → Condition.Continues begun ts := by
  rintro ⟨_, _, rfl, first, _, _, rfl, operand, _, _, rfl, last, rfl⟩
  rw [symbol] at first
  rw [action] at last
  subst first last
  simpa using (Condition.Continues.close relation member operand).spell

/-- A comparison that is written out already, before its second operand. -/
theorem continues_operand {a : Symbol} {begun : List Symbol} (relation : Logic)
    (member : (relation, begun) ∈ Condition.spellings) (action : Phrase a = fun ts => ts = []) :
    Yields Phrase ["expr", a] ts → Condition.Continues begun ts := by
  rintro ⟨_, _, rfl, operand, _, _, rfl, last, rfl⟩
  rw [action] at last
  subst last
  simpa using Condition.Continues.close relation member operand

section Lists

variable {α : Type} {part : List Token → α → Prop} {first rest : Symbol}
  (parts : Phrase first = fun ts => ∃ a, part ts a)
  (continued : Phrase rest = Listing.Continues part)

include parts continued

theorem listing : Yields Phrase [first, rest] ts → ∃ as, Listing part ts as := by
  rintro ⟨_, _, rfl, head, _, _, rfl, more, rfl⟩
  rw [parts] at head
  rw [continued] at more
  simpa using more.listing head

theorem listing_more : Yields Phrase [",", first, rest] ts → Listing.Continues part ts := by
  rintro ⟨_, _, rfl, rfl, _, _, rfl, next, _, _, rfl, more, rfl⟩
  rw [parts] at next
  rw [continued] at more
  simpa using more.cons next

end Lists

theorem listing_nil {α : Type} {part : List Token → α → Prop} :
    Yields Phrase [] ts → Listing.Continues part ts := by
  rintro rfl
  exact .nil

theorem putexpr : Yields Phrase ["expr", "@out"] ts → Phrase "putexpr" ts := by
  rintro ⟨_, _, rfl, ⟨e, sum⟩, _, _, rfl, rfl, rfl⟩
  exact ⟨e, by simpa using sum⟩

theorem getexpr : Yields Phrase ["var", "@in", "@sti"] ts → Phrase "getexpr" ts := by
  rintro ⟨_, _, rfl, ⟨p, place⟩, _, _, rfl, rfl, _, _, rfl, rfl, rfl⟩
  exact ⟨p, by simpa using place⟩

theorem assign : Yields Phrase ["var", "=", "expr", "@sti", ";"] ts → Phrase "assign" ts := by
  rintro ⟨_, _, rfl, ⟨p, target⟩, _, _, rfl, rfl, _, _, rfl, ⟨e, value⟩, _, _, rfl, rfl, _, _,
    rfl, rfl, rfl⟩
  exact ⟨_, by simpa using Statement.Reads.assign target value⟩

theorem put : Yields Phrase ["$put", "putlist", ";"] ts → Phrase "put" ts := by
  rintro ⟨_, _, rfl, rfl, _, _, rfl, ⟨es, items⟩, _, _, rfl, rfl, rfl⟩
  exact ⟨_, by simpa using Statement.Reads.put items⟩

theorem get : Yields Phrase ["$get", "getlist", ";"] ts → Phrase "get" ts := by
  rintro ⟨_, _, rfl, rfl, _, _, rfl, ⟨ps, targets⟩, _, _, rfl, rfl, rfl⟩
  exact ⟨_, by simpa using Statement.Reads.get targets⟩

theorem stop : Yields Phrase ["$stop", "@quit", ";"] ts → Phrase "stop" ts := by
  rintro ⟨_, _, rfl, rfl, _, _, rfl, rfl, _, _, rfl, rfl, rfl⟩
  exact ⟨_, .stop⟩

theorem goto : Yields Phrase ["$goto", "$id", "@goto", ";"] ts → Phrase "goto" ts := by
  rintro ⟨_, _, rfl, rfl, _, _, rfl, ⟨x, rfl⟩, _, _, rfl, rfl, _, _, rfl, rfl, rfl⟩
  exact ⟨_, .goto x⟩

theorem branch : Yields Phrase ["$if", "logexpr", "$then", "@begin_if", "state", "@end_if"] ts →
    Phrase "if" ts := by
  rintro ⟨_, _, rfl, rfl, _, _, rfl, ⟨c, condition⟩, _, _, rfl, rfl, _, _, rfl, rfl, _, _, rfl,
    ⟨s, body⟩, _, _, rfl, rfl, rfl⟩
  exact ⟨_, by simpa using Statement.Reads.branch condition body⟩

theorem group : Yields Phrase ["$do", ";", "states", "$end", ";"] ts → Phrase "group" ts := by
  rintro ⟨_, _, rfl, rfl, _, _, rfl, rfl, _, _, rfl, ⟨ss, body⟩, _, _, rfl, rfl, _, _, rfl, rfl,
    rfl⟩
  exact ⟨_, by simpa using Statement.Reads.group body⟩

theorem label : Yields Phrase [":", "$id", "@label", ":"] ts → Phrase "label" ts := by
  rintro ⟨_, _, rfl, rfl, _, _, rfl, ⟨x, rfl⟩, _, _, rfl, rfl, _, _, rfl, rfl, rfl⟩
  exact ⟨x, rfl⟩

theorem state_labelled : Yields Phrase ["label", "ustate"] ts → Phrase "state" ts := by
  rintro ⟨_, _, rfl, ⟨x, rfl⟩, _, _, rfl, ⟨s, body⟩, rfl⟩
  exact ⟨_, by simpa using Statement.Reads.labelled x body⟩

theorem state : Yields Phrase ["ustate"] ts → Phrase "state" ts := by
  rintro ⟨_, _, rfl, ⟨s, bare⟩, rfl⟩
  exact ⟨s, by simpa using Statement.Reads.plain bare⟩

theorem states : Yields Phrase ["state", "states"] ts → Phrase "states" ts := by
  rintro ⟨_, _, rfl, ⟨s, first⟩, _, _, rfl, ⟨ss, rest⟩, rfl⟩
  exact ⟨s :: ss, by simpa using Statement.Reads.cons first rest⟩

theorem states_nil : Yields Phrase [] ts → Phrase "states" ts := by
  rintro rfl
  exact ⟨[], .nil⟩

theorem declexpr :
    Yields Phrase ["$id", "@push", "(", "$int", "@declare", ")"] ts → Phrase "declexpr" ts := by
  rintro ⟨_, _, rfl, ⟨x, rfl⟩, _, _, rfl, rfl, _, _, rfl, rfl, _, _, rfl, ⟨n, positive, rfl⟩,
    _, _, rfl, rfl, _, _, rfl, rfl, rfl⟩
  exact ⟨_, .array x n positive⟩

theorem decls : Yields Phrase ["$declare", "declist", ";", "decls"] ts → Phrase "decls" ts := by
  rintro ⟨_, _, rfl, rfl, _, _, rfl, ⟨ds, arrays⟩, _, _, rfl, rfl, _, _, rfl, more, rfl⟩ us ss
    statements
  obtain ⟨source, reads⟩ := more us ss statements
  exact ⟨_, by simpa using Source.Reads.declare arrays reads⟩

theorem decls_nil : Yields Phrase [] ts → Phrase "decls" ts := by
  rintro rfl us ss statements
  exact ⟨_, .statements statements⟩

theorem program : Yields Phrase ["decls", "states", "@quit"] ts → Phrase "program" ts := by
  rintro ⟨_, _, rfl, declarations, _, _, rfl, ⟨ss, statements⟩, _, _, rfl, rfl, rfl⟩
  obtain ⟨source, reads⟩ := declarations _ ss statements
  exact ⟨source, by simpa using reads⟩

/-- The rules of the scheme, in their order. -/
theorem of_rule : ∀ rule ∈ programScheme.rules, ∀ ts,
    Yields Phrase rule.right ts → Phrase rule.left ts := by
  simp only [programScheme, List.forall_mem_cons]
  refine ⟨fun _ => program, fun _ => decls, fun _ => decls_nil, fun _ => listing rfl rfl,
    fun _ => listing_more rfl rfl, fun _ => listing_nil, fun _ => declexpr, fun _ => states,
    fun _ => states_nil, fun _ => state_labelled, fun _ => state, fun _ => label,
    fun _ => unit rfl, fun _ => unit rfl, fun _ => unit rfl, fun _ => unit rfl, fun _ => unit rfl,
    fun _ => unit rfl, fun _ => unit rfl, fun _ => assign, fun _ => put, fun _ => get,
    fun _ => stop, fun _ => goto, fun _ => branch, fun _ => group, fun _ => logexpr,
    fun _ => continues_symbol .eq (by decide) rfl rfl, fun _ => continues_spell rfl rfl,
    fun _ => continues_symbol .ge (by decide) rfl rfl,
    fun _ => continues_operand .gt (by decide) rfl, fun _ => continues_spell rfl rfl,
    fun _ => continues_operand .lt (by decide) rfl,
    fun _ => continues_symbol .le (by decide) rfl rfl,
    fun _ => continues_symbol .ne (by decide) rfl rfl, fun _ => listing rfl rfl,
    fun _ => listing_more rfl rfl, fun _ => listing_nil, fun _ => getexpr, fun _ => listing rfl rfl,
    fun _ => listing_more rfl rfl, fun _ => listing_nil, fun _ => putexpr, fun _ => var,
    fun _ => subvar, fun _ => subvar_nil, fun _ => expr, fun _ => expr_positive,
    fun _ => expr_negative, fun _ => terms_plus, fun _ => terms_minus, fun _ => terms_nil,
    fun _ => term, fun _ => facts_times, fun _ => facts_divided, fun _ => facts_nil,
    fun _ => fact_variable, fun _ => fact_literal, fun _ => fact_parens, by simp⟩

theorem of_action : ∀ a ∈ programScheme.actions, Phrase a [] := by
  simp only [programScheme, List.forall_mem_cons]
  refine ⟨rfl, rfl, rfl, rfl, rfl, rfl, rfl, rfl, rfl, rfl, rfl, rfl, rfl, rfl, rfl, rfl, rfl, rfl,
    rfl, rfl, rfl, rfl, rfl, rfl, rfl, by simp⟩

/-- The terminals other than names and integers stand for themselves. -/
theorem of_terminal : ∀ s ∈ programScheme.terminals, s ≠ "$id" → s ≠ "$int" →
    Phrase s [symbol s] := by
  simp only [programScheme, List.forall_mem_cons]
  refine ⟨by simp, by simp, ?_⟩
  simp only [List.not_mem_nil, false_implies, implies_true, and_true]
  refine ⟨?_, ?_, ?_, ?_, ?_, ?_, ?_, ?_, ?_, ?_, ?_, ?_, ?_, ?_, ?_, ?_, ?_, ?_, ?_, ?_, ?_, ?_,
    ?_⟩ <;> exact fun _ _ => rfl

theorem of_token {t : Token} (shaped : t.Shaped) (terminal : t.name ∈ programScheme.terminals) :
    Phrase t.name [t] := by
  cases shaped with
  | identifier x => exact ⟨x, rfl⟩
  | integer n positive => exact ⟨n, positive, rfl⟩
  | symbol name notName notInteger => exact of_terminal name terminal notName notInteger

/-- What a symbol derives is a phrase of it. -/
theorem of_derives {s : Symbol} {leaves : List Leaf} (derives : programScheme.Derives [s] leaves)
    (shaped : ∀ t ∈ Leaf.tokens leaves, t.Shaped) : Phrase s (Leaf.tokens leaves) := by
  have yields := derives.yields of_rule of_action fun t member => of_token (shaped t member)
  obtain ⟨own, _, same, phrase, rfl⟩ := yields
  rw [same, List.append_nil]
  exact phrase

end Phrase

end Pushdown
