import StartEnd.Proofs.Canonical.Text

/-!
# Reading canonical texts back

The canonical text of a well-formed program is read as that program if its nest is within
the limit, and otherwise there are too many open constructs. Nothing is required of the
origin of the program: it need not come from a text.
-/

namespace StartEnd

open Concrete (lexemes)

namespace Parse

/-- The outcome of a parse of a text with the lexemes of a program. -/
theorem sourceAt_exact {opened : Nat} (room : opened ≤ depthLimit) {text : String}
    {body : Concrete.Body} (placed : body.Placed .endWord)
    (lexes : Lexes text.toList (lexemes body.programMarks)) :
    (opened + peak body.programMarks ≤ depthLimit → (sourceAt opened text).1 = .ok ⟨body.tree⟩) ∧
    (depthLimit < opened + peak body.programMarks → ∃ position, (sourceAt opened text).1 =
      .error ⟨.nestingTooDeep depthLimit.toUInt64, position⟩) := by
  obtain ⟨tokens, last, delivered, spelled, visible, ends⟩ := items_of_lexes lexes
  have before : beforeEnding (tokens ++ [last]) = tokens := beforeEnding_of_visible visible ends
  have written : Spells (beforeEnding (tokens ++ [last])) body.programMarks := by
    rw [before]
    exact spelled
  rw [sourceAt_of_items delivered]
  exact tokensAt_outcome room placed written

end Parse

/-- The outcome of a parse of a canonical text. -/
theorem Program.sourceAt_canonical {program : Program} (wellFormed : program.WellFormed)
    {opened : Nat} (room : opened ≤ Parse.depthLimit) :
    (opened + program.nest ≤ Parse.depthLimit →
      (Parse.sourceAt opened program.canonical).1 = .ok program) ∧
    (Parse.depthLimit < opened + program.nest →
      ∃ position, (Parse.sourceAt opened program.canonical).1 =
        .error ⟨.nestingTooDeep Parse.depthLimit.toUInt64, position⟩) := by
  have outcome := Parse.sourceAt_exact room (placed_concrete wellFormed)
    (lexes_canonical wellFormed)
  have needed : peak program.body.concrete.programMarks = program.nest := peak_marks wellFormed
  rw [needed, Block.tree_concrete] at outcome
  exact outcome

/-- The canonical text of a well-formed program is read back as the program exactly if its
nest is at most 128, and has too many open constructs otherwise. -/
theorem Program.parse_canonical (program : Program) (wellFormed : program.WellFormed) :
    (program.nest ≤ 128 → Program.parse program.canonical = .ok program) ∧
    (128 < program.nest →
      ∃ position, Program.parse program.canonical = .error ⟨.nestingTooDeep 128, position⟩) := by
  have outcome := sourceAt_canonical wellFormed (Nat.zero_le Parse.depthLimit)
  rw [Nat.zero_add] at outcome
  exact outcome

/-- An assignment of a chain of 126 powers is read back, and one of 127 powers is not. -/
theorem Program.parse_canonical_powers :
    let powers (count : Nat) : Program :=
      ⟨.cons (.assign ⟨⟨"x"⟩, (Expr.binary (.number "2") .pow)^[count] (.number "2")⟩) .nil⟩
    Program.parse (powers 126).canonical = .ok (powers 126) ∧
      ∃ position,
        Program.parse (powers 127).canonical = .error ⟨.nestingTooDeep 128, position⟩ := by
  intro powers
  have formed : ∀ count, (powers count).WellFormed := by
    intro count
    have value : ((Expr.binary (.number "2") .pow)^[count] (.number "2")).WellFormed := by
      induction count with
      | zero => decide +kernel
      | succ count inductionHypothesis =>
        rw [Function.iterate_succ_apply']
        exact ⟨by decide +kernel, inductionHypothesis⟩
    have target : Identifier.WellFormed ⟨"x"⟩ := by decide +kernel
    exact ⟨nofun, ⟨target, value⟩, trivial⟩
  constructor
  · exact (parse_canonical _ (formed 126)).1 (by decide +kernel)
  · exact (parse_canonical _ (formed 127)).2 (by decide +kernel)

end StartEnd
