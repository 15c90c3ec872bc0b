import StartEnd.Proofs.Canonical.Nest
import StartEnd.Proofs.Canonical.RoundTrip
import StartEnd.Proofs.Grammar.Language

/-!
# Canonical texts of parsed texts

A text that is read as a program and the canonical text of this program are read alike.
The canonical text needs no more open constructs: with any limit with which the text is
read, its canonical text is read too. So a canonical text never has too many open
constructs if it was made from a text that had not.
-/

namespace StartEnd

/-- The program in a source text if no more than the given number of constructs may be
open at once. The other constructs up to the limit are open from the start. -/
def Program.parseWithin (room : Nat) (text : String) : Except Fault Program :=
  (Parse.sourceAt (Parse.depthLimit - room) text).1

/-- A parse has room for as many constructs as the limit allows. -/
theorem Program.parseWithin_depthLimit (text : String) :
    Program.parseWithin Parse.depthLimit text = Program.parse text := rfl

namespace Parse

/-- A fault behind visible tokens stands before every end-of-input token. The induction is
over the tokens that are taken from the front. -/
theorem fault_before_ending {tokens front : List Token} {others : List Item} {fault : Fault}
    (visible : ∀ token ∈ tokens, token.kind ≠ .endOfInput)
    (ended : ∀ item ∈ others.head?, ∃ token, item = .ok token ∧ token.kind = .endOfInput) :
    tokens.map Except.ok ++ [.error fault] ≠ front.map Except.ok ++ others := by
  induction front generalizing tokens with
  | nil =>
    rintro rfl
    rcases tokens with _ | ⟨first, rest⟩
    · obtain ⟨token, impossible, _⟩ := ended (.error fault) rfl
      exact absurd impossible (by simp)
    · obtain ⟨token, same, isEnding⟩ := ended (.ok first) rfl
      obtain rfl := Except.ok.inj same
      exact visible first List.mem_cons_self isEnding
  | cons taken front inductionHypothesis =>
    intro split
    rcases tokens with _ | ⟨first, rest⟩
    · have heads : (.error fault : Item) = .ok taken := (List.cons.inj split).1
      exact absurd heads (by simp)
    · have further : ∀ token ∈ rest, token.kind ≠ .endOfInput :=
        fun token member => visible token (List.mem_cons_of_mem _ member)
      exact inductionHypothesis further (List.cons.inj split).2

/-- The items of a text that is read as a program are tokens up to the end of the input. -/
theorem exists_tokens_of_parsed {opened : Nat} {text : String} {program : Program}
    (parsed : (sourceAt opened text).1 = .ok program) :
    ∃ (tokens : List Token) (last : Token), Source.items text = (tokens ++ [last]).map Except.ok ∧
      (∀ token ∈ tokens, token.Lexical) ∧ last.kind = .endOfInput := by
  have whole : sourceAt opened text = (.ok program, (sourceAt opened text).2) :=
    Prod.ext parsed rfl
  obtain ⟨events, others, _, _, split, ended⟩ := succeeded_replayed whole
  obtain ⟨tokens, last, shape, lexical, ends⟩ := (items_delivers text).shape
  cases last with
  | ok token =>
    refine ⟨tokens, token, ?_, lexical, ends token rfl⟩
    rw [shape, List.map_append]
    rfl
  | error fault =>
    have visible : ∀ token ∈ tokens, token.kind ≠ .endOfInput :=
      fun token member => (lexical token member).visible
    exact absurd (shape.symm.trans split) (fault_before_ending visible ended)

/-- A text that is read as a program writes one down. Whatever is open at the start of a
parse of the text, the parse gives the tree of that program, and there is room for the
constructs that the program needs. -/
theorem exists_body_of_parsed {opened : Nat} {text : String} {program : Program}
    (parsed : (sourceAt opened text).1 = .ok program) :
    ∃ body : Concrete.Body, body.Placed .endWord ∧ Legible body.programMarks ∧
      ∀ (begun : Nat) (other : Program), begun ≤ depthLimit →
        (sourceAt begun text).1 = .ok other →
          other = ⟨body.tree⟩ ∧ begun + peak body.programMarks ≤ depthLimit := by
  obtain ⟨tokens, last, delivered, lexical, ends⟩ := exists_tokens_of_parsed parsed
  have before : beforeEnding (tokens ++ [last]) = tokens :=
    beforeEnding_of_visible (fun token member => (lexical token member).visible) ends
  rw [sourceAt_of_items delivered] at parsed
  obtain ⟨body, placed, spelled⟩ := exists_body_of_derives (derives_of_parsed parsed)
  refine ⟨body, placed, ?_, ?_⟩
  · rw [before] at spelled
    exact spelled.legible lexical
  · intro begun other room succeeded
    rw [sourceAt_of_items delivered] at succeeded
    obtain ⟨succeeds, fails⟩ := tokensAt_outcome room placed spelled
    by_cases fits : begun + peak body.programMarks ≤ depthLimit
    · have same := succeeded.symm.trans (succeeds fits)
      exact ⟨Except.ok.inj same, fits⟩
    · obtain ⟨position, failed⟩ := fails (Nat.lt_of_not_le fits)
      rw [failed] at succeeded
      exact absurd succeeded (by simp)

end Parse

/-- The tree of a written program is well formed. -/
theorem Concrete.Body.wellFormed_program {body : Concrete.Body} (placed : body.Placed .endWord)
    (legible : Legible body.programMarks) : (Program.mk body.tree).WellFormed := by
  simp only [programMarks, legible_cons, legible_append, legible_raised] at legible
  exact ⟨tree_ne_nil placed.2, wellFormed_tree body placed.1 legible.2.1⟩

/-- The nest of a written program is at most what its text needs. -/
theorem Concrete.Body.nest_program_le {body : Concrete.Body} (placed : body.Placed .endWord) :
    (Program.mk body.tree).nest ≤ peak body.programMarks := by
  have inside := nest_le_raised placed.2 (nest_le body placed.1)
  simp only [Program.nest, Block.nest, programMarks, peak_cons, peak_append]
  omega

/-- A text that is read as a program gives a well-formed program. The canonical text of the
program is read as the same program, and it needs no more open constructs than the text. -/
theorem Program.parse_canonical_of_parse (text : String) (program : Program)
    (parsed : Program.parse text = .ok program) :
    program.WellFormed ∧ Program.parse program.canonical = .ok program ∧
      ∀ room, (∃ other, Program.parseWithin room text = .ok other) →
        Program.parseWithin room program.canonical = .ok program := by
  have begun : (Parse.sourceAt 0 text).1 = .ok program := parsed
  obtain ⟨body, placed, legible, exact⟩ := Parse.exists_body_of_parsed begun
  obtain ⟨rfl, _⟩ := exact 0 program (Nat.zero_le _) parsed
  have wellFormed := Concrete.Body.wellFormed_program placed legible
  have bounded := Concrete.Body.nest_program_le placed
  have within : ∀ room, (∃ other, Program.parseWithin room text = .ok other) →
      Program.parseWithin room (Program.mk body.tree).canonical = .ok ⟨body.tree⟩ := by
    rintro room ⟨other, succeeded⟩
    have below : Parse.depthLimit - room ≤ Parse.depthLimit := Nat.sub_le _ _
    obtain ⟨_, fits⟩ := exact _ other below succeeded
    apply (sourceAt_canonical wellFormed below).1
    exact Nat.le_trans (Nat.add_le_add_left bounded _) fits
  have again : Program.parse (Program.mk body.tree).canonical = .ok ⟨body.tree⟩ := by
    rw [← parseWithin_depthLimit] at parsed ⊢
    exact within Parse.depthLimit ⟨_, parsed⟩
  exact ⟨wellFormed, again, within⟩

/-- A text with parentheses that are not needed and without braces is read, and so is its
canonical text. -/
theorem Program.parse_canonical_of_parse_branch :
    let value : Expr := .binary (.binary (.number "1") .add (.number "2")) .mul (.number "3")
    let program : Program :=
      ⟨.cons (.branch (.last ⟨.symbol ⟨"x"⟩, .lt, .number "1"⟩
        (.cons (.assign ⟨⟨"y"⟩, value⟩) .nil))) .nil⟩
    Program.parse "Start if (x < 1) y = ((1 + 2)) * (3) End" = .ok program ∧
      program.WellFormed ∧ Program.parse program.canonical = .ok program := by
  intro value program
  have parsed : Program.parse "Start if (x < 1) y = ((1 + 2)) * (3) End" = .ok program := by
    decide +kernel
  obtain ⟨wellFormed, again, _⟩ := parse_canonical_of_parse _ program parsed
  exact ⟨parsed, wellFormed, again⟩

end StartEnd
