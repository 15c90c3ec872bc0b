import StartEnd.Proofs.Grammar.Derivation
import StartEnd.Proofs.Replay.Program

/-!
# Replays are derivations

The tokens that a replay has shifted fall into pieces for the symbols on its stack, with
the braces put back that were dropped around the body of an `if`. Every piece is derived
from its symbol. A piece of a factor is kept as a chain of powers, because a production
for powers takes a factor on both sides, and a chain can be continued by a chain.

So the tokens of a successful parse are derived from a program.
-/

namespace StartEnd

namespace Replay

/-- Symbols on a stack with braces put back around some bodies behind a condition. The
first argument is the symbol in front of them. -/
def Restores : Option Symbol → List Symbol → List Symbol → Prop
  | _, [], symbols => symbols = []
  | previous, first :: rest, symbols =>
    (∃ others, symbols = first :: others ∧ Restores (some first) rest others) ∨
    (previous = some (.terminal .closeParen) ∧ first = .nonterminal .body ∧
      ∃ others, symbols = .terminal .openCurly :: first :: .terminal .closeCurly :: others ∧
        Restores (some first) rest others)

/-- Braces are put back on a part of the stack after the other. -/
theorem restores_append_iff {previous : Option Symbol} {first second symbols : List Symbol} :
    Restores previous (first ++ second) symbols ↔
      ∃ early late, symbols = early ++ late ∧ Restores previous first early ∧
        Restores (first.getLast?.or previous) second late := by
  induction first generalizing previous symbols with
  | nil => simp [Restores]
  | cons symbol rest inductionHypothesis =>
    have last : (symbol :: rest).getLast?.or previous = rest.getLast?.or (some symbol) := by
      rw [List.getLast?_cons]
      cases rest.getLast? <;> rfl
    rw [last]
    constructor
    · rintro (⟨others, rfl, further⟩ | ⟨behind, isBody, others, rfl, further⟩)
      all_goals obtain ⟨early, late, rfl, front, back⟩ := inductionHypothesis.mp further
      · exact ⟨symbol :: early, late, rfl, .inl ⟨early, rfl, front⟩, back⟩
      · exact ⟨_ :: symbol :: _ :: early, late, rfl, .inr ⟨behind, isBody, early, rfl, front⟩,
          back⟩
    · rintro ⟨_, late, rfl, ⟨early, rfl, front⟩ | ⟨behind, isBody, early, rfl, front⟩, back⟩
      all_goals have further := inductionHypothesis.mpr ⟨early, late, rfl, front, back⟩
      · exact .inl ⟨early ++ late, rfl, further⟩
      · exact .inr ⟨behind, isBody, early ++ late, rfl, further⟩

/-- Two symbols in a row between which no brace was dropped. -/
def Unbraced (first second : Symbol) : Prop :=
  first = .terminal .closeParen → second ≠ .nonterminal .body

instance (first second : Symbol) : Decidable (Unbraced first second) :=
  inferInstanceAs (Decidable (_ → _))

/-- Symbols among which no brace was dropped stay as they are. -/
theorem Restores.eq_of_unbraced {previous : Option Symbol} {stack symbols : List Symbol}
    (restores : Restores previous stack symbols)
    (first : previous = some (.terminal .closeParen) → stack.head? ≠ some (.nonterminal .body))
    (unbraced : stack.IsChain Unbraced) : symbols = stack := by
  induction stack generalizing previous symbols with
  | nil => exact restores
  | cons symbol rest inductionHypothesis =>
    rcases restores with ⟨others, rfl, further⟩ | ⟨behind, isBody, _⟩
    · have next : some symbol = some (.terminal .closeParen) →
          rest.head? ≠ some (.nonterminal .body) := by
        intro behind
        rcases rest with _ | ⟨second, rest⟩
        · simp
        · have apart := (List.isChain_cons_cons.mp unbraced).1 (Option.some.inj behind)
          simpa using apart
      rw [inductionHypothesis further next unbraced.of_cons]
    · exact absurd (congrArg some isBody) (first behind)

/-- A chain of powers, each exponent an operand without operators. -/
inductive Powers : List Token → Prop where
  | base {tokens : List Token} (derives : Derives [.nonterminal .exp] tokens) : Powers tokens
  | raise {front back : List Token} {sign : Token} (power : Powers front)
      (raises : sign.kind = .starStar) (derives : Derives [.nonterminal .exp] back) :
    Powers (front ++ sign :: back)

/-- A token is derived from its kind. -/
theorem derives_terminal {token : Token} {kind : Token.Kind} (same : token.kind = kind) :
    Derives [.terminal kind] [token] := by
  subst same
  exact Relation.ReflTransGen.refl

/-- A chain of powers is derived from a factor. -/
theorem Powers.derives {tokens : List Token} (powers : Powers tokens) :
    Derives [.nonterminal .factor] tokens := by
  induction powers with
  | base derives => exact derives_of_body (production_mem .factorExp) derives
  | raise power raises derives inductionHypothesis =>
    have parts := inductionHypothesis.append ((derives_terminal raises).append derives)
    exact derives_of_body (production_mem .factorPow) parts

/-- A chain of powers raised to a chain of powers is a chain of powers. -/
theorem Powers.append {front back : List Token} {sign : Token} (power : Powers front)
    (raises : sign.kind = .starStar) (exponent : Powers back) :
    Powers (front ++ sign :: back) := by
  induction exponent with
  | base derives => exact .raise power raises derives
  | raise first again derives inductionHypothesis =>
    have longer := Powers.raise inductionHypothesis again derives
    simpa using longer

/-- Tokens are derived from a symbol: one token from a terminal, and a chain of powers from
a factor. -/
def Yields : Symbol → List Token → Prop
  | .terminal kind, tokens => ∃ token, tokens = [token] ∧ token.kind = kind
  | .nonterminal phrase, tokens =>
    if phrase = .factor then Powers tokens else Derives [.nonterminal phrase] tokens

/-- What a symbol yields is derived from it. -/
theorem Yields.derives {symbol : Symbol} {tokens : List Token} (yields : Yields symbol tokens) :
    Derives [symbol] tokens := by
  cases symbol with
  | terminal kind =>
    obtain ⟨token, rfl, same⟩ := yields
    exact derives_terminal same
  | nonterminal phrase =>
    by_cases isFactor : phrase = .factor
    · rw [Yields, if_pos isFactor] at yields
      exact isFactor ▸ yields.derives
    · rwa [Yields, if_neg isFactor] at yields

/-- What a production takes off the stack is its own body, or that of an `if` with
braces. -/
theorem exists_production_of_handle {rule : Rule} {previous : Option Symbol}
    {symbols : List Symbol} (plain : rule ≠ .factorPow)
    (restores : Restores previous (handle rule) symbols) :
    ∃ production ∈ productions, production.head = rule.production.head ∧
      production.body = symbols := by
  have own (same : symbols = rule.production.body) : ∃ production ∈ productions,
      production.head = rule.production.head ∧ production.body = symbols :=
    ⟨rule.production, production_mem rule, rfl, same.symm⟩
  cases rule
  case factorPow => exact absurd rfl plain
  case branchThen =>
    obtain ⟨early, late, rfl, front, back⟩ := restores_append_iff.mp
      (show Restores previous (condition ++ [.nonterminal .body]) symbols from restores)
    obtain rfl : early = condition := front.eq_of_unbraced (fun _ => by decide) (by decide)
    rcases back with ⟨_, rfl, rfl⟩ | ⟨_, _, _, rfl, rfl⟩
    · exact own rfl
    · exact ⟨.bracedThen, by decide, rfl, rfl⟩
  case branchElse =>
    obtain ⟨early, late, rfl, front, back⟩ := restores_append_iff.mp
      (show Restores previous (condition ++ [.nonterminal .body, .terminal .elseWord,
        .nonterminal .branch]) symbols from restores)
    obtain rfl : early = condition := front.eq_of_unbraced (fun _ => by decide) (by decide)
    rcases back with ⟨others, rfl, rest⟩ | ⟨_, _, others, rfl, rest⟩
    all_goals obtain rfl := rest.eq_of_unbraced (by decide) (by decide)
    · exact own rfl
    · exact ⟨.bracedElse, by decide, rfl, rfl⟩
  all_goals exact own (restores.eq_of_unbraced (fun _ => by decide) (by decide))

/-- The head of a production yields what the symbols that it takes off the stack yield. -/
theorem yields_of_handle {rule : Rule} {previous : Option Symbol} {symbols : List Symbol}
    {tokens : List Token} (restores : Restores previous (handle rule) symbols)
    (forest : Forest Yields symbols tokens) :
    Yields (.nonterminal rule.production.head) tokens := by
  by_cases isPower : rule = .factorPow
  · subst isPower
    obtain rfl := restores.eq_of_unbraced (fun _ => by decide) (by decide)
    obtain ⟨front, _, rfl, power, _, back, rfl, ⟨sign, rfl, raises⟩, exponent⟩ := forest
    have chain : Powers (front ++ sign :: back) :=
      Powers.append power raises (forest_singleton_iff.mp exponent)
    exact chain
  by_cases isOperand : rule = .factorExp
  · subst isOperand
    obtain rfl := restores.eq_of_unbraced (fun _ => by decide) (by decide)
    exact Powers.base (forest_singleton_iff.mp forest).derives
  · obtain ⟨production, listed, same, rfl⟩ := exists_production_of_handle isPower restores
    have derives : Derives [.nonterminal production.head] tokens :=
      derives_of_body listed (derives_of_forest (fun _ _ yields => yields.derives) forest)
    have other : rule.production.head ≠ .factor := by
      revert isPower isOperand
      cases rule <;> decide
    rw [same] at derives
    rw [Yields, if_neg other]
    exact derives

/-- The tokens fall into pieces for the symbols on the stack, with dropped braces put
back. -/
def Covers (stack : List Entry) (tokens : List Token) : Prop :=
  ∃ symbols, Restores none (stack.map Entry.symbol) symbols ∧ Forest Yields symbols tokens

/-- One step on a stack that covers some tokens covers those that are shifted too. -/
theorem Steps.covers {stack last : List Entry} {event : Event} {tokens : List Token}
    (step : Steps stack event last) (covers : Covers stack tokens) :
    Covers last (tokens ++ shifts [event]) := by
  obtain ⟨symbols, restores, forest⟩ := covers
  cases step with
  | shift stack token visible =>
    have kept : Restores none ((stack ++ [Entry.terminal token]).map Entry.symbol)
        (symbols ++ [.terminal token.kind]) := by
      rw [List.map_append]
      exact restores_append_iff.mpr ⟨_, _, rfl, restores, .inl ⟨[], rfl, rfl⟩⟩
    refine ⟨_, kept, forest_append_iff.mpr ⟨_, _, rfl, forest, ?_⟩⟩
    exact forest_singleton_iff.mpr ⟨token, rfl, rfl⟩
  | reduce below entries rule made fits built =>
    rw [List.map_append, fits] at restores
    obtain ⟨early, late, rfl, front, back⟩ := restores_append_iff.mp restores
    obtain ⟨first, second, rfl, lower, upper⟩ := forest_append_iff.mp forest
    have kept : Restores none ((below ++ [Entry.phrase rule.production.head made]).map
        Entry.symbol) (early ++ [.nonterminal rule.production.head]) := by
      rw [List.map_append]
      exact restores_append_iff.mpr ⟨_, _, rfl, front, .inl ⟨[], rfl, rfl⟩⟩
    rw [shifts_reduce, List.append_nil]
    refine ⟨_, kept, forest_append_iff.mpr ⟨_, _, rfl, lower, ?_⟩⟩
    exact forest_singleton_iff.mpr (yields_of_handle back upper)
  | unbrace below guard opening closing body guarded opens closes =>
    have braces : [Entry.terminal opening, .phrase .body body, .terminal closing].map
        Entry.symbol = [.terminal .openCurly, .nonterminal .body, .terminal .closeCurly] := by
      simp only [List.map_cons, List.map_nil, Entry.symbol_terminal, opens, closes]
      rfl
    rw [List.map_append, braces] at restores
    obtain ⟨early, late, rfl, front, back⟩ := restores_append_iff.mp restores
    obtain rfl := back.eq_of_unbraced (fun _ => by decide) (by decide)
    have behind : ((below ++ guard).map Entry.symbol).getLast?.or none =
        some (.terminal .closeParen) := by
      rw [List.map_append, guarded, Option.or_none, List.getLast?_append]
      rfl
    have dropped : Restores none ((below ++ guard ++ [Entry.phrase .body body]).map Entry.symbol)
        (early ++ [.terminal .openCurly, .nonterminal .body, .terminal .closeCurly]) := by
      rw [List.map_append]
      exact restores_append_iff.mpr
        ⟨_, _, rfl, front, .inr ⟨behind, rfl, [], rfl, rfl⟩⟩
    refine ⟨_, dropped, ?_⟩
    rwa [shifts_unbrace, List.append_nil]

/-- A run from a stack that covers some tokens covers those that are shifted too. -/
theorem Runs.covers {stack last : List Entry} {events : List Event} {tokens : List Token}
    (runs : Runs stack events last) (covers : Covers stack tokens) :
    Covers last (tokens ++ shifts events) := by
  induction runs generalizing tokens with
  | done stack => simpa [shifts] using covers
  | @next stack middle last event events step rest inductionHypothesis =>
    have further := inductionHypothesis (step.covers covers)
    rwa [List.append_assoc, ← shifts_append, List.singleton_append] at further

/-- A replay that ends with one phrase derives the tokens that it has shifted from it. -/
theorem Runs.derives {events : List Event} {head : Nonterminal} {node : head.Node}
    (runs : Runs [] events [.phrase head node]) :
    Derives [.nonterminal head] (shifts events) := by
  have covers : Covers [.phrase head node] ([] ++ shifts events) :=
    runs.covers ⟨[], rfl, rfl⟩
  obtain ⟨symbols, restores, forest⟩ := covers
  obtain rfl := restores.eq_of_unbraced nofun (.singleton _)
  exact (forest_singleton_iff.mp forest).derives

end Replay

end StartEnd
