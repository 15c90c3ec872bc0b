import Mathlib.Algebra.Order.BigOperators.Group.List
import Mathlib.Algebra.Order.Ring.Nat
import StartEnd.Proofs.Canonical.Reparse

/-!
# The log read backwards

A rightmost derivation replaces the last nonterminal by the body of a production, over and
over, until only terminals are left. A replay read from its end to its start is such a
derivation: what was reduced last is replaced first. The braces around the body of an `if`
stand in no production, so they are put back by a step of their own.

The derivation is one of the listed productions as long as there is no power. A power groups
to the right, so its exponent is a factor by the time it is reduced, while the production
for powers lists an operand without operators. With the listed body, a log with a power in
it is no derivation of anything: more operands are made than are replaced.
-/

namespace StartEnd

namespace Replay

/-- A rightmost derivation by productions with the given bodies. The last nonterminal is
replaced, which has only terminals behind it, or put between braces as the body of an `if`. -/
inductive Rightmost (body : Rule → List Symbol) :
    List Symbol → List Rule → List Symbol → Prop where
  | done (symbols : List Symbol) : Rightmost body symbols [] symbols
  | replace (before : List Symbol) (rule : Rule) (behind : List Token.Kind) {rules : List Rule}
      {last : List Symbol}
      (rest : Rightmost body (before ++ body rule ++ behind.map .terminal) rules last) :
    Rightmost body (before ++ .nonterminal rule.production.head :: behind.map .terminal)
      (rule :: rules) last
  | brace (before : List Symbol) (behind : List Token.Kind) {rules : List Rule}
      {last : List Symbol}
      (rest : Rightmost body (before ++ condition ++ .terminal .openCurly :: .nonterminal .body ::
        .terminal .closeCurly :: behind.map .terminal) rules last) :
    Rightmost body (before ++ condition ++ .nonterminal .body :: behind.map .terminal) rules last

namespace Rightmost

variable {body : Rule → List Symbol} {first middle last : List Symbol}
  {rules early late : List Rule}

/-- Derivations in a row are one derivation. -/
theorem trans (front : Rightmost body first early middle) (back : Rightmost body middle late last) :
    Rightmost body first (early ++ late) last := by
  induction front with
  | done symbols => exact back
  | replace before rule behind rest inductionHypothesis =>
    exact .replace before rule behind (inductionHypothesis back)
  | brace before behind rest inductionHypothesis =>
    exact .brace before behind (inductionHypothesis back)

/-- Only the bodies of the productions that are applied matter. -/
theorem congr {other : Rule → List Symbol} (derivation : Rightmost body first rules last)
    (same : ∀ rule ∈ rules, body rule = other rule) : Rightmost other first rules last := by
  induction derivation with
  | done symbols => exact .done symbols
  | replace before rule behind rest inductionHypothesis =>
    apply Rightmost.replace
    rw [← same rule List.mem_cons_self]
    exact inductionHypothesis fun later member => same later (List.mem_cons_of_mem _ member)
  | brace before behind rest inductionHypothesis =>
    exact .brace before behind (inductionHypothesis same)

/-- A terminal stays where it is. -/
theorem terminal_mem (derivation : Rightmost body first rules last) {kind : Token.Kind}
    (member : .terminal kind ∈ first) : .terminal kind ∈ last := by
  induction derivation with
  | done symbols => exact member
  | replace before rule behind rest inductionHypothesis =>
    apply inductionHypothesis
    have kept : .terminal kind ∈ before ∨ kind ∈ behind := by simpa using member
    rcases kept with inFront | isBehind
    · simp [inFront]
    · simp [isBehind]
  | brace before behind rest inductionHypothesis =>
    apply inductionHypothesis
    have kept : .terminal kind ∈ before ∨ .terminal kind ∈ condition ∨ kind ∈ behind := by
      simpa using member
    rcases kept with inFront | inCondition | isBehind
    · simp [inFront]
    · simp [inCondition]
    · simp [isBehind]

/-- The terminals of every production that is applied are derived. -/
theorem terminal_mem_of_rule (derivation : Rightmost body first rules last) {rule : Rule}
    (applied : rule ∈ rules) {kind : Token.Kind} (member : .terminal kind ∈ body rule) :
    .terminal kind ∈ last := by
  induction derivation with
  | done symbols => exact absurd applied List.not_mem_nil
  | replace before other behind rest inductionHypothesis =>
    rcases List.mem_cons.mp applied with rfl | later
    · exact rest.terminal_mem (by simp [member])
    · exact inductionHypothesis later
  | brace before behind rest inductionHypothesis => exact inductionHypothesis applied

/-- A terminal was there, or a production that is applied lists it, or it is a brace. -/
theorem rule_of_terminal (derivation : Rightmost body first rules last) {kind : Token.Kind}
    (visible : kind ≠ .openCurly ∧ kind ≠ .closeCurly) (member : .terminal kind ∈ last) :
    .terminal kind ∈ first ∨ ∃ rule ∈ rules, .terminal kind ∈ body rule := by
  induction derivation with
  | done symbols => exact .inl member
  | replace before rule behind rest inductionHypothesis =>
    rcases inductionHypothesis member with early | ⟨other, applied, listed⟩
    · have made : .terminal kind ∈ before ∨ .terminal kind ∈ body rule ∨ kind ∈ behind := by
        simpa using early
      rcases made with inFront | inBody | isBehind
      · exact .inl (by simp [inFront])
      · exact .inr ⟨rule, List.mem_cons_self, inBody⟩
      · exact .inl (by simp [isBehind])
    · exact .inr ⟨other, List.mem_cons_of_mem _ applied, listed⟩
  | brace before behind rest inductionHypothesis =>
    rcases inductionHypothesis member with early | made
    · have kept : .terminal kind ∈ before ∨ .terminal kind ∈ condition ∨ kind ∈ behind := by
        simpa [visible] using early
      refine .inl ?_
      rcases kept with inFront | inCondition | isBehind
      · simp [inFront]
      · simp [inCondition]
      · simp [isBehind]
    · exact .inr made

/-- Terminals are no nonterminals. -/
theorem count_terminals (kinds : List Token.Kind) (phrase : Nonterminal) :
    (kinds.map Symbol.terminal).count (.nonterminal phrase) = 0 := by
  simp [List.count_eq_zero]

/-- A nonterminal is replaced as often as it was there or was made, less what is left. -/
theorem balance (derivation : Rightmost body first rules last) (phrase : Nonterminal) :
    first.count (.nonterminal phrase) +
        (rules.map fun rule => (body rule).count (.nonterminal phrase)).sum =
      last.count (.nonterminal phrase) +
        rules.countP fun rule => rule.production.head = phrase := by
  induction derivation with
  | done symbols => simp
  | replace before rule behind rest inductionHypothesis =>
    have unmade := count_terminals behind phrase
    by_cases isHead : rule.production.head = phrase
    · simp only [List.count_append, List.count_cons, List.map_cons, List.sum_cons,
        List.countP_cons, unmade, isHead, decide_true, beq_self_eq_true, if_true]
        at inductionHypothesis ⊢
      omega
    · have apart : (Symbol.nonterminal rule.production.head == .nonterminal phrase) = false := by
        simpa using isHead
      simp only [List.count_append, List.count_cons, List.map_cons, List.sum_cons,
        List.countP_cons, unmade, isHead, apart, decide_false, Bool.false_eq_true, if_false]
        at inductionHypothesis ⊢
      omega
  | brace before behind rest inductionHypothesis =>
    have kept : ∀ kind, (Symbol.terminal kind == .nonterminal phrase) = false := fun _ => rfl
    simpa [List.count_append, List.count_cons, kept] using inductionHypothesis

end Rightmost

/-- A replay read backwards is a rightmost derivation, in front of any terminals. The
induction is over the replay; its first step is the last one of the derivation. -/
theorem Runs.rightmost {stack last : List Entry} {events : List Event}
    (runs : Runs stack events last) (behind : List Token.Kind) :
    Rightmost handle (last.map Entry.symbol ++ behind.map .terminal) (reductions events).reverse
      (stack.map Entry.symbol ++ ((shifts events).map Token.kind ++ behind).map .terminal) := by
  induction runs with
  | done stack => exact .done _
  | @next stack middle last event events step rest inductionHypothesis =>
    cases step with
    | shift stack token visible =>
      simpa [shifts, reductions] using inductionHypothesis
    | reduce below entries rule made fits built =>
      have replaced : Rightmost handle
          (below.map Entry.symbol ++ .nonterminal rule.production.head ::
            ((shifts events).map Token.kind ++ behind).map .terminal) [rule]
          (below.map Entry.symbol ++ handle rule ++
            ((shifts events).map Token.kind ++ behind).map .terminal) :=
        .replace _ rule _ (.done _)
      have whole := inductionHypothesis.trans (by simpa using replaced)
      simpa [shifts, reductions, fits] using whole
    | unbrace below guard opening closing body guarded opens closes =>
      have braced : Rightmost handle
          (below.map Entry.symbol ++ condition ++ .nonterminal .body ::
            ((shifts events).map Token.kind ++ behind).map .terminal) []
          (below.map Entry.symbol ++ condition ++ .terminal .openCurly :: .nonterminal .body ::
            .terminal .closeCurly :: ((shifts events).map Token.kind ++ behind).map .terminal) :=
        .brace _ _ (.done _)
      have whole := inductionHypothesis.trans (by simpa [guarded] using braced)
      simpa [shifts, reductions, guarded, opens, closes] using whole

/-- The symbols that a production lists. -/
def listed (rule : Rule) : List Symbol := rule.production.body

/-- Without powers, every production takes what it lists. -/
theorem handle_eq_listed {rule : Rule} (plain : rule ≠ .factorPow) : handle rule = listed rule := by
  cases rule <;> first | rfl | exact absurd rfl plain

/-- Only the production for powers lists the sign of a power. -/
theorem starStar_mem_handle_iff {rule : Rule} :
    .terminal .starStar ∈ handle rule ↔ rule = .factorPow := by
  cases rule <;> decide

/-- A derivation by the listed bodies makes an operand for every exponent, which a replay
makes a factor for. So there is none besides a replay with a power in it. -/
theorem Rightmost.not_listed {rules : List Rule} {kinds others : List Token.Kind}
    (replayed : Rightmost handle [.nonterminal .program] rules (kinds.map .terminal))
    (power : .factorPow ∈ rules) :
    ¬ Rightmost listed [.nonterminal .program] rules (others.map .terminal) := by
  intro derivation
  have made := replayed.balance .exp
  have wanted := derivation.balance .exp
  rw [count_terminals] at made wanted
  have fewer : (rules.map fun rule => (handle rule).count (.nonterminal .exp)).sum <
      (rules.map fun rule => (listed rule).count (.nonterminal .exp)).sum := by
    apply List.sum_lt_sum
    · intro rule _
      cases rule <;> decide
    · exact ⟨.factorPow, power, by decide⟩
  omega

end Replay

namespace Parse

open Replay

/-- The log of a successful parse, read backwards, is a rightmost derivation of the kinds of
the tokens from a program, in which a power takes a factor for its exponent. With the bodies
that the productions list it is one exactly if there is no power. -/
theorem source_rightmost (text : String) (program : Program)
    (parsed : (Parse.source text).1 = .ok program) :
    ∃ (tokens : List Token) (last : Token), Source.tokens text = .ok (tokens ++ [last]) ∧
      last.kind = .endOfInput ∧
      Rightmost handle [.nonterminal .program] (Parse.source text).2.reductions.reverse
        ((tokens.map Token.kind).map .terminal) ∧
      (Rightmost listed [.nonterminal .program] (Parse.source text).2.reductions.reverse
          ((tokens.map Token.kind).map .terminal) ↔
        ∀ token ∈ tokens, token.kind ≠ .starStar) := by
  obtain ⟨tokens, last, delivered, lexical, ends⟩ :=
    exists_tokens_of_parsed (show (sourceAt 0 text).1 = .ok program from parsed)
  have before : beforeEnding (tokens ++ [last]) = tokens :=
    beforeEnding_of_visible (fun token member => (lexical token member).visible) ends
  have same : Parse.source text = tokensAt 0 (tokens ++ [last]) := sourceAt_of_items delivered
  have whole : tokensAt 0 (tokens ++ [last]) = (.ok program, (Parse.source text).2) := by
    rw [← same, ← parsed]
  obtain ⟨events, runs, logged, shifted⟩ := succeeded_tokens whole
  rw [before] at shifted
  have derivation := runs.rightmost []
  simp only [logged, shifted, List.map_nil, List.append_nil, List.nil_append, List.map_cons,
    Entry.symbol_phrase] at derivation
  refine ⟨tokens, last, Source.tokens_of_items delivered, ends, derivation, ?_⟩
  constructor
  · intro asListed token member isPower
    have derived : Symbol.terminal .starStar ∈ (tokens.map Token.kind).map .terminal :=
      List.mem_map_of_mem (List.mem_map.mpr ⟨token, member, isPower⟩)
    rcases derivation.rule_of_terminal (by decide) derived with initial | ⟨rule, applied, made⟩
    · exact absurd initial (by decide)
    · obtain rfl := starStar_mem_handle_iff.mp made
      exact Rightmost.not_listed derivation applied asListed
  · intro plain
    apply derivation.congr
    intro rule applied
    apply handle_eq_listed
    rintro rfl
    have derived := derivation.terminal_mem_of_rule applied (starStar_mem_handle_iff.mpr rfl)
    have inside : Token.Kind.starStar ∈ tokens.map Token.kind := by simpa using derived
    obtain ⟨token, member, isPower⟩ := List.mem_map.mp inside
    exact plain token member isPower

/-- A text with braces around the body of an `if` and with a chain of powers has a log that
is a rightmost derivation. -/
theorem source_rightmost_powers :
    let text := "Start if (a < b) \x7b x = a ** 2 ** b \x7d End"
    let rules : List Rule :=
      [.program, .bodySingle, .conceptBranch, .branchThen, .bodySingle, .conceptAssign, .assign,
        .exprTerm, .termFactor, .factorPow, .factorPow, .factorExp, .expId, .id, .factorExp,
        .expDigit, .digit, .factorExp, .expId, .id, .id, .condition, .exprTerm, .termFactor,
        .factorExp, .expId, .id, .opLt, .exprTerm, .termFactor, .factorExp, .expId, .id]
    ∃ (tokens : List Token) (last : Token), Source.tokens text = .ok (tokens ++ [last]) ∧
      Rightmost handle [.nonterminal .program] rules ((tokens.map Token.kind).map .terminal) := by
  intro text rules
  let power : Expr := .binary (.symbol ⟨"a"⟩) .pow (.binary (.number "2") .pow (.symbol ⟨"b"⟩))
  let link : Branch :=
    .last ⟨.symbol ⟨"a"⟩, .lt, .symbol ⟨"b"⟩⟩ (.cons (.assign ⟨⟨"x"⟩, power⟩) .nil)
  have parsed : (Parse.source text).1 = .ok ⟨.cons (.branch link) .nil⟩ := by decide +kernel
  have logged : (Parse.source text).2.reductions.reverse = rules := by decide +kernel
  obtain ⟨tokens, last, lexed, _, derivation, _⟩ := source_rightmost text _ parsed
  rw [logged] at derivation
  exact ⟨tokens, last, lexed, derivation⟩

/-- The log of one power is no rightmost derivation by the listed bodies. The exponent is
made a factor before the power is reduced, so an operand is made that nothing replaces. -/
theorem source_not_listed :
    (Parse.source "Start x = a ** b End").1 =
        .ok ⟨.cons (.assign ⟨⟨"x"⟩, .binary (.symbol ⟨"a"⟩) .pow (.symbol ⟨"b"⟩)⟩) .nil⟩ ∧
      ∀ kinds : List Token.Kind,
        ¬ Rightmost listed [.nonterminal .program]
          (Parse.source "Start x = a ** b End").2.reductions.reverse (kinds.map .terminal) := by
  have logged : (Parse.source "Start x = a ** b End").2.reductions.reverse =
      [.program, .bodySingle, .conceptAssign, .assign, .exprTerm, .termFactor, .factorPow,
        .factorExp, .expId, .id, .factorExp, .expId, .id, .id] := by
    decide +kernel
  refine ⟨by decide +kernel, ?_⟩
  intro kinds derivation
  have balanced := derivation.balance .exp
  rw [Rightmost.count_terminals, logged] at balanced
  exact absurd balanced (by decide)

end Parse

end StartEnd
