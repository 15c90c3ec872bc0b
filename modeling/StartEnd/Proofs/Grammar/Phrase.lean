import StartEnd.Proofs.Grammar.Chain
import StartEnd.Proofs.Grammar.First

/-!
# What phrases can be made of

Every phrase stands for some tokens, for at least one of them, and never for an
end-of-input token. The kinds that are listed as those that can begin a phrase do begin
one, also where bodies may stand between braces. A body can be continued by another
statement.
-/

namespace StartEnd

open Replay (derives_terminal)

/-- A token of a kind, without a text. -/
def Token.bare (kind : Token.Kind) : Token := { kind := kind, value := "" }

/-- Bare tokens have the kinds of which they are made. -/
@[simp] theorem Token.map_kind_bare (kinds : List Token.Kind) :
    (kinds.map Token.bare).map Token.kind = kinds := by
  rw [List.map_map]
  exact List.map_id kinds

/-- Bare tokens are their kinds as letters. -/
theorem Token.letters_bare (kinds : List Token.Kind) :
    Token.letters (kinds.map Token.bare) = kinds.map .terminal := by
  rw [Token.letters, List.map_map]
  rfl

/-- Symbols stand for some tokens. -/
theorem exists_derives (symbols : List Symbol) : ∃ tokens, Derives symbols tokens := by
  obtain ⟨kinds, derives⟩ := exists_kinds .program production_subset
    (symbols.map Symbol.letter)
  refine ⟨kinds.map .bare, ?_⟩
  rw [Derives, Token.letters_bare]
  exact derives

/-- Pieces of at least one token each, of which there is at least one, have a token. -/
theorem ne_nil_of_forest {symbols : List Symbol} {tokens : List Token} (present : symbols ≠ [])
    (forest : Forest (fun _ tokens => tokens ≠ []) symbols tokens) : tokens ≠ [] := by
  obtain ⟨symbol, others, rfl⟩ := List.exists_cons_of_ne_nil present
  obtain ⟨front, back, rfl, holds, _⟩ := forest
  simp [holds]

/-- Some symbols stand for at least one token. -/
theorem ne_nil_of_derives {symbols : List Symbol} {tokens : List Token} (present : symbols ≠ [])
    (derives : Derives symbols tokens) : tokens ≠ [] := by
  have filled : ∀ production ∈ productions, production.body ≠ [] := by decide
  refine ne_nil_of_forest present (forest_of_derives (fun _ => by simp) ?_ derives)
  exact fun production listed _ forest => ne_nil_of_forest (filled production listed) forest

/-- Only the symbol for the end of the input stands for an end-of-input token. -/
def Visible (symbol : Symbol) (tokens : List Token) : Prop :=
  symbol ≠ .terminal .endOfInput → ∀ token ∈ tokens, token.kind ≠ .endOfInput

/-- Pieces for other symbols than the end of the input have no end-of-input token. -/
theorem visible_of_forest {symbols : List Symbol} {tokens : List Token}
    (absent : .terminal .endOfInput ∉ symbols) (forest : Forest Visible symbols tokens) :
    ∀ token ∈ tokens, token.kind ≠ .endOfInput := by
  induction symbols generalizing tokens with
  | nil =>
    obtain rfl : tokens = [] := forest
    simp
  | cons symbol symbols inductionHypothesis =>
    obtain ⟨front, back, rfl, holds, rest⟩ := forest
    obtain ⟨other, others⟩ := not_or.mp (List.mem_cons.not.mp absent)
    intro token inside
    rcases List.mem_append.mp inside with early | late
    · exact holds (Ne.symm other) token early
    · exact inductionHypothesis others rest token late

/-- No end-of-input token is derived from a phrase. -/
theorem visible_of_derives {phrase : Nonterminal} {tokens : List Token}
    (derives : Derives [.nonterminal phrase] tokens) :
    ∀ token ∈ tokens, token.kind ≠ .endOfInput := by
  have unlisted : ∀ production ∈ productions, .terminal .endOfInput ∉ production.body := by decide
  refine visible_of_forest (by simp) (forest_of_derives ?_ ?_ derives)
  · intro token other member inside
    obtain rfl := List.mem_singleton.mp inside
    exact fun same => other (congrArg Symbol.terminal same)
  · exact fun production listed _ forest _ => visible_of_forest (unlisted production listed) forest

/-- Tokens are derived from a symbol and, if it is a body, so they are with more behind. -/
def Continued (more : List Token) (symbol : Symbol) (tokens : List Token) : Prop :=
  Derives [symbol] tokens ∧
    (symbol = .nonterminal .body → Derives [.nonterminal .body] (tokens ++ more))

/-- Every production hands on that a body may be continued by a body. -/
theorem continued_of_production {more : List Token} (late : Derives [.nonterminal .body] more)
    {production : Production} (listed : production ∈ productions) {tokens : List Token}
    (forest : Forest (Continued more) production.body tokens) :
    Continued more (.nonterminal production.head) tokens := by
  refine ⟨derives_of_body listed (derives_of_forest (fun _ _ holds => holds.1) forest), ?_⟩
  intro isBody
  have bodies : ∀ production ∈ productions, production.head = .body →
      production ∈ [Rule.bodySingle, .bodyCons].map Rule.production := by decide
  have rules := bodies production listed (Symbol.nonterminal.inj isBody)
  simp only [List.map_cons, List.map_nil, List.mem_cons, List.not_mem_nil, or_false] at rules
  rcases rules with rfl | rfl
  · have single := forest_singleton_iff.mp forest
    exact derives_of_body (production_mem .bodyCons) (single.1.append late)
  · obtain ⟨first, others, rfl, single, rest⟩ := forest_pair_iff.mp forest
    rw [List.append_assoc]
    exact derives_of_body (production_mem .bodyCons) (single.1.append (rest.2 rfl))

/-- Bodies in a row are a body. -/
theorem derives_body_append {front back : List Token} (early : Derives [.nonterminal .body] front)
    (late : Derives [.nonterminal .body] back) : Derives [.nonterminal .body] (front ++ back) := by
  have forest : Forest (Continued back) [.nonterminal .body] front :=
    forest_of_derives (fun token => ⟨derives_terminal rfl, by simp⟩)
      (fun _ listed _ => continued_of_production late listed) early
  exact (forest_singleton_iff.mp forest).2 rfl

/-- The symbols stand for tokens of which the first has the given kind. -/
def First.Opens (symbols : List Symbol) (kind : Token.Kind) : Prop :=
  ∃ token rest, token.kind = kind ∧ Derives symbols (token :: rest)

/-- What begins the first symbol begins them all. -/
theorem First.Opens.append {symbols : List Symbol} {kind : Token.Kind}
    (opens : First.Opens symbols kind) (others : List Symbol) :
    First.Opens (symbols ++ others) kind := by
  obtain ⟨token, rest, same, derives⟩ := opens
  obtain ⟨further, late⟩ := exists_derives others
  exact ⟨token, rest ++ further, same, derives.append late⟩

/-- The kinds that are listed for a phrase begin it. -/
theorem opens_of_mem_first {phrase : Nonterminal} {kind : Token.Kind}
    (listed : kind ∈ phrase.first) : First.Opens [.nonterminal phrase] kind := by
  rw [phrase.first_eq_set, First.mem_set_iff] at listed
  obtain ⟨kinds, derives⟩ := (listed.mono production_subset).begins .program
    production_subset
  refine ⟨.bare kind, kinds.map .bare, rfl, ?_⟩
  rw [Derives, ← List.map_cons, Token.letters_bare]
  exact derives

/-- The kinds that begin a phrase are listed in their order. -/
theorem first_increasing (phrase : Nonterminal) :
    phrase.first.Pairwise fun left right => left.rank < right.rank :=
  First.known_increasing firstFacts phrase

/-- The kinds that begin the phrases of which a fault names the beginnings. All listings are
read off the same facts, which are computed once. -/
theorem first_listings :
    Nonterminal.concept.first =
      [.identifier, .floatWord, .funcWord, .ifWord, .intWord, .repWord, .stringWord] ∧
    Nonterminal.exp.first = [.number, .identifier, .openParen] ∧
    Nonterminal.op.first = [.notEquals, .less, .equals, .greater] ∧
    Nonterminal.data.first = [.floatWord, .intWord, .stringWord] ∧
    Nonterminal.step.first = [.identifier, .minusMinus, .plusPlus] := by
  decide +kernel

/-- The kinds that begin a statement. -/
theorem first_concept : Nonterminal.concept.first =
    [.identifier, .floatWord, .funcWord, .ifWord, .intWord, .repWord, .stringWord] :=
  first_listings.1

/-- The kinds that begin an operand. -/
theorem first_exp : Nonterminal.exp.first = [.number, .identifier, .openParen] :=
  first_listings.2.1

/-- The signs of comparisons. -/
theorem first_op : Nonterminal.op.first = [.notEquals, .less, .equals, .greater] :=
  first_listings.2.2.1

/-- The words for data types. -/
theorem first_data : Nonterminal.data.first = [.floatWord, .intWord, .stringWord] :=
  first_listings.2.2.2.1

/-- The kinds that begin the advance of a loop. -/
theorem first_step : Nonterminal.step.first = [.identifier, .minusMinus, .plusPlus] :=
  first_listings.2.2.2.2

end StartEnd
