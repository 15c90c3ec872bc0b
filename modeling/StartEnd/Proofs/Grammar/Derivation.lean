import Mathlib.Computability.ContextFreeGrammar
import StartEnd.Grammar.Rule
import StartEnd.Token

/-!
# Derivations of the grammar

The grammar of the language has the listed productions and two more, for an `if` whose
body stands between braces. What it derives is defined in the theory of context-free
grammars.

Tokens that are derived from symbols fall into pieces, one for each symbol. A property of
such pieces that every production hands on from its body to its head holds of all tokens
that are derived from a symbol.
-/

/-- The symbols of a context-free grammar. -/
abbrev ContextFreeGrammar.Letter (T N : Type) : Type := Symbol T N

namespace StartEnd

open ContextFreeGrammar (Letter)

/-- An `if` whose body stands between braces. -/
def Production.bracedThen : Production :=
  ⟨.branch, [.terminal .ifWord, .terminal .openParen, .nonterminal .condition,
    .terminal .closeParen, .terminal .openCurly, .nonterminal .body, .terminal .closeCurly]⟩

/-- An `if` whose body stands between braces, continued by `else`. -/
def Production.bracedElse : Production :=
  ⟨.branch, [.terminal .ifWord, .terminal .openParen, .nonterminal .condition,
    .terminal .closeParen, .terminal .openCurly, .nonterminal .body, .terminal .closeCurly,
    .terminal .elseWord, .nonterminal .branch]⟩

/-- The listed productions and those of an `if` with braces. -/
def productions : List Production :=
  Rule.all.map Rule.production ++ [.bracedThen, .bracedElse]

/-- A symbol as a context-free grammar has it. -/
def Symbol.letter : Symbol → Letter Token.Kind Nonterminal
  | .terminal kind => .terminal kind
  | .nonterminal phrase => .nonterminal phrase

/-- A production as a context-free grammar has it. -/
def Production.contextFree (production : Production) : ContextFreeRule Token.Kind Nonterminal :=
  ⟨production.head, production.body.map Symbol.letter⟩

/-- The grammar of the language. -/
abbrev grammar : ContextFreeGrammar Token.Kind where
  NT := Nonterminal
  initial := .program
  rules := (productions.map Production.contextFree).toFinset

/-- The kinds of tokens, as letters. -/
def Token.letters (tokens : List Token) : List (Letter Token.Kind Nonterminal) :=
  tokens.map fun token => .terminal token.kind

/-- Tokens are derived from symbols. -/
def Derives (symbols : List Symbol) (tokens : List Token) : Prop :=
  grammar.Derives (symbols.map Symbol.letter) (Token.letters tokens)

/-- Tokens fall into pieces for some symbols, each with the given property. -/
def Forest (piece : Symbol → List Token → Prop) : List Symbol → List Token → Prop
  | [], tokens => tokens = []
  | symbol :: symbols, tokens =>
    ∃ front back, tokens = front ++ back ∧ piece symbol front ∧ Forest piece symbols back

variable {piece : Symbol → List Token → Prop}

/-- Pieces for symbols in a row are pieces in a row. -/
theorem forest_append_iff {first second : List Symbol} {tokens : List Token} :
    Forest piece (first ++ second) tokens ↔
      ∃ front back, tokens = front ++ back ∧ Forest piece first front ∧
        Forest piece second back := by
  induction first generalizing tokens with
  | nil => simp [Forest]
  | cons symbol symbols inductionHypothesis =>
    constructor
    · rintro ⟨front, _, rfl, holds, rest⟩
      obtain ⟨middle, back, rfl, early, late⟩ := inductionHypothesis.mp rest
      exact ⟨front ++ middle, back, by simp, ⟨front, middle, rfl, holds, early⟩, late⟩
    · rintro ⟨_, back, rfl, ⟨front, middle, rfl, holds, early⟩, late⟩
      exact ⟨front, middle ++ back, by simp, holds,
        inductionHypothesis.mpr ⟨middle, back, rfl, early, late⟩⟩

/-- Pieces for one symbol are one piece. -/
theorem forest_singleton_iff {symbol : Symbol} {tokens : List Token} :
    Forest piece [symbol] tokens ↔ piece symbol tokens := by
  simp [Forest]

/-- Pieces for two symbols are two pieces in a row. -/
theorem forest_pair_iff {first second : Symbol} {tokens : List Token} :
    Forest piece [first, second] tokens ↔
      ∃ front back, tokens = front ++ back ∧ piece first front ∧ piece second back := by
  simp [Forest]

/-- Pieces for three symbols are three pieces in a row. -/
theorem forest_triple_iff {first second third : Symbol} {tokens : List Token} :
    Forest piece [first, second, third] tokens ↔
      ∃ front middle back, tokens = front ++ (middle ++ back) ∧ piece first front ∧
        piece second middle ∧ piece third back := by
  constructor
  · rintro ⟨front, _, rfl, holds, rest⟩
    obtain ⟨middle, back, rfl, others⟩ := forest_pair_iff.mp rest
    exact ⟨front, middle, back, rfl, holds, others⟩
  · rintro ⟨front, middle, back, rfl, holds, others⟩
    exact ⟨front, middle ++ back, rfl, holds, forest_pair_iff.mpr ⟨middle, back, rfl, others⟩⟩

/-- Symbols that are letters of nonterminals are these nonterminals. -/
theorem letter_eq_nonterminal_iff {symbol : Symbol} {phrase : Nonterminal} :
    symbol.letter = .nonterminal phrase ↔ symbol = .nonterminal phrase := by
  cases symbol <;> simp [Symbol.letter]

/-- One step of a derivation replaces the head of a production by its body. -/
theorem exists_production_of_produces {symbols : List Symbol}
    {letters : List (Letter Token.Kind Nonterminal)}
    (produces : grammar.Produces (symbols.map Symbol.letter) letters) :
    ∃ production ∈ productions, ∃ before after,
      symbols = before ++ .nonterminal production.head :: after ∧
      letters = (before ++ production.body ++ after).map Symbol.letter := by
  obtain ⟨rule, listed, rewrites⟩ := produces
  obtain ⟨production, isListed, rfl⟩ := List.mem_map.mp (List.mem_toFinset.mp listed)
  obtain ⟨front, back, split, rfl⟩ := rewrites.exists_parts
  rw [List.append_assoc] at split
  obtain ⟨before, rest, rfl, rfl, others⟩ := List.map_eq_append_iff.mp split
  obtain ⟨symbol, after, rfl, isHead, rfl⟩ := List.map_eq_cons_iff.mp others
  obtain rfl := letter_eq_nonterminal_iff.mp isHead
  refine ⟨production, isListed, before, after, rfl, ?_⟩
  simp [Production.contextFree]

/-- Tokens are derived from their own kinds, each of which is a piece. -/
theorem forest_of_letters (single : ∀ token, piece (.terminal token.kind) [token])
    {symbols : List Symbol} {tokens : List Token}
    (same : symbols.map Symbol.letter = Token.letters tokens) : Forest piece symbols tokens := by
  induction tokens generalizing symbols with
  | nil =>
    obtain rfl := List.map_eq_nil_iff.mp same
    rfl
  | cons token tokens inductionHypothesis =>
    obtain ⟨symbol, rest, rfl, isKind, others⟩ := List.map_eq_cons_iff.mp same
    have terminal : symbol = .terminal token.kind := by
      cases symbol <;> simp_all [Symbol.letter]
    subst terminal
    exact ⟨[token], tokens, rfl, single token, inductionHypothesis others⟩

/-- What every production hands on from its body to its head holds of all tokens that are
derived. The induction is over the derivation, from its end backwards. -/
theorem forest_of_derives (single : ∀ token, piece (.terminal token.kind) [token])
    (closed : ∀ production ∈ productions, ∀ tokens, Forest piece production.body tokens →
      piece (.nonterminal production.head) tokens)
    {symbols : List Symbol} {tokens : List Token} (derives : Derives symbols tokens) :
    Forest piece symbols tokens := by
  unfold Derives at derives
  generalize start : symbols.map Symbol.letter = letters at derives
  induction derives using Relation.ReflTransGen.head_induction_on generalizing symbols with
  | refl => exact forest_of_letters single start
  | head produces rest inductionHypothesis =>
    subst start
    obtain ⟨production, listed, before, after, rfl, rfl⟩ :=
      exists_production_of_produces produces
    have further : Forest piece (before ++ production.body ++ after) tokens :=
      inductionHypothesis rfl
    obtain ⟨_, back, rfl, early, late⟩ := forest_append_iff.mp further
    obtain ⟨front, middle, rfl, first, second⟩ := forest_append_iff.mp early
    refine forest_append_iff.mpr ⟨front, middle ++ back, by simp, first, ?_⟩
    exact ⟨middle, back, rfl, closed production listed middle second, late⟩

/-- A symbol that stands for tokens derives them together with what the others derive. -/
theorem Derives.append {first second : List Symbol} {front back : List Token}
    (early : Derives first front) (late : Derives second back) :
    Derives (first ++ second) (front ++ back) := by
  unfold Derives
  rw [Token.letters, List.map_append, List.map_append]
  exact (early.append_right _).trans (late.append_left _)

/-- Pieces that are derived from their symbols are derived from all of them. -/
theorem derives_of_forest (derived : ∀ symbol tokens, piece symbol tokens →
    Derives [symbol] tokens) {symbols : List Symbol} {tokens : List Token}
    (forest : Forest piece symbols tokens) : Derives symbols tokens := by
  induction symbols generalizing tokens with
  | nil =>
    obtain rfl : tokens = [] := forest
    exact Relation.ReflTransGen.refl
  | cons symbol symbols inductionHypothesis =>
    obtain ⟨front, back, rfl, holds, rest⟩ := forest
    exact (derived symbol front holds).append (inductionHypothesis rest)

/-- What is derived from the body of a production is derived from its head. -/
theorem derives_of_body {production : Production} (listed : production ∈ productions)
    {tokens : List Token} (derives : Derives production.body tokens) :
    Derives [.nonterminal production.head] tokens := by
  have listed : production.contextFree ∈ grammar.rules :=
    List.mem_toFinset.mpr (List.mem_map_of_mem listed)
  have produces : grammar.Produces [.nonterminal production.head]
      (production.body.map Symbol.letter) :=
    ⟨production.contextFree, listed, ContextFreeRule.Rewrites.input_output⟩
  exact produces.trans_derives derives

/-- Every listed production is one of the grammar. -/
theorem production_mem (rule : Rule) : rule.production ∈ productions :=
  List.mem_append_left _ (List.mem_map_of_mem rule.mem_all)

/-- The grammar has all listed productions. -/
theorem production_subset : Rule.all.map Rule.production ⊆ productions :=
  List.subset_append_left _ _

/-- Kinds are in the language when they are derived from a program. -/
theorem mem_language_iff_derives {tokens : List Token} :
    tokens.map Token.kind ∈ grammar.language ↔ Derives [.nonterminal .program] tokens := by
  rw [ContextFreeGrammar.mem_language_iff, List.map_map]
  rfl

end StartEnd
