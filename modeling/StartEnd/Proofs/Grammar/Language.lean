import StartEnd.Proofs.Concrete.Sentence
import StartEnd.Proofs.Replay.Derivation

/-!
# The language of the parser

The parser accepts exactly the language of the grammar, but for programs in which too
many constructs are open. One direction is read off the replay of a successful parse,
which is a derivation. For the other one, the tokens of a sentence write down a program
in the grouping that a parse finds.
-/

namespace StartEnd.Parse

open Replay

/-- The tokens of a successful parse are a sentence. -/
theorem derives_of_parsed {opened : Nat} {tokens : List Token} {program : Program}
    (parsed : (tokensAt opened tokens).1 = .ok program) :
    Derives [.nonterminal .program] (beforeEnding tokens) := by
  have whole : tokensAt opened tokens = (.ok program, (tokensAt opened tokens).2) :=
    Prod.ext parsed rfl
  obtain ⟨events, runs, _, shifted⟩ := succeeded_tokens whole
  rw [← shifted]
  exact runs.derives

/-- A parse of tokens whose kinds are in the language of the grammar succeeds or finds too
many open constructs, and a parse of any other tokens faults. -/
theorem tokens_language (tokens : List Token) :
    ((beforeEnding tokens).map Token.kind ∈ grammar.language →
      (∃ program, (Parse.tokens tokens).1 = .ok program) ∨
        ∃ position, (Parse.tokens tokens).1 =
          .error ⟨.nestingTooDeep depthLimit.toUInt64, position⟩) ∧
    ((beforeEnding tokens).map Token.kind ∉ grammar.language →
      ∃ fault, (Parse.tokens tokens).1 = .error fault) := by
  constructor
  · intro sentence
    obtain ⟨body, placed, spelled⟩ := exists_body_of_derives (mem_language_iff_derives.mp sentence)
    obtain ⟨succeeds, fails⟩ := tokensAt_outcome (Nat.zero_le depthLimit) placed spelled
    rw [tokensAt_zero] at succeeds fails
    by_cases fits : 0 + peak body.programMarks ≤ depthLimit
    · exact .inl ⟨_, succeeds fits⟩
    · exact .inr (fails (Nat.lt_of_not_le fits))
  · intro foreign
    rw [← tokensAt_zero]
    cases parsed : (tokensAt 0 tokens).1 with
    | error fault => exact ⟨fault, rfl⟩
    | ok program =>
      exact absurd (mem_language_iff_derives.mpr (derives_of_parsed parsed)) foreign

end StartEnd.Parse
