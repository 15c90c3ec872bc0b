import StartEnd.Grammar.Rule

/-!
# Kinds that can begin a phrase

The kinds that begin a nonterminal are found by reading the leading symbols of
productions until nothing new appears. A fact pairs a nonterminal with a kind
that begins it. One scan visits the productions in order and publishes each fact
at once, so later productions in the same scan may use it. There are only finitely
many pairs, which bounds the number of scans that can add one.

Reading leading symbols alone is right here because no body is empty.
-/

namespace StartEnd.First

/-- A nonterminal and a kind that begins it. -/
abbrev Fact := Nonterminal × Token.Kind

/-- The kinds already known to begin a phrase, read off a set of facts. -/
def known (facts : List Fact) (phrase : Nonterminal) : List Token.Kind :=
  Token.Kind.all.filter fun kind => (phrase, kind) ∈ facts

/-- The kinds that begin a body according to its leading symbol. -/
def leading (facts : List Fact) : List Symbol → List Token.Kind
  | [] => []
  | .terminal kind :: _ => [kind]
  | .nonterminal phrase :: _ => known facts phrase

/-- Adds a fact unless it is already present. -/
def publish (facts : List Fact) (fact : Fact) : List Fact :=
  if fact ∈ facts then facts else fact :: facts

/-- Publishes what one production shows about its head. -/
def step (facts : List Fact) (production : Production) : List Fact :=
  (leading facts production.body).foldl
    (fun current kind => publish current (production.head, kind)) facts

/-- One pass over the productions in order. -/
def scan (productions : List Production) (facts : List Fact) : List Fact :=
  productions.foldl step facts

/-- Scans until a pass adds nothing, at most as often as the first argument says. -/
def saturate (productions : List Production) : Nat → List Fact → List Fact
  | 0, facts => facts
  | scans + 1, facts =>
    let next := scan productions facts
    if next.length = facts.length then facts else saturate productions scans next

/-- All facts about a list of productions. Each pass but the last adds one of the
finitely many pairs. -/
def facts (productions : List Production) : List Fact :=
  saturate productions (Nonterminal.all.length * Token.Kind.all.length + 1) []

/-- The kinds that can begin a phrase of the given productions, in order. -/
def set (productions : List Production) (phrase : Nonterminal) : List Token.Kind :=
  known (facts productions) phrase

end StartEnd.First

namespace StartEnd

/-- The facts about the productions of the language. -/
def firstFacts : List First.Fact := First.facts (Rule.all.map Rule.production)

/-- The kinds that can begin a phrase of the language, in order. -/
def Nonterminal.first (phrase : Nonterminal) : List Token.Kind := First.known firstFacts phrase

/-- The kinds that appear in some production, in order. -/
def terminals : List Token.Kind :=
  Token.Kind.all.filter fun kind =>
    Rule.all.any fun rule => .terminal kind ∈ rule.production.body

end StartEnd
