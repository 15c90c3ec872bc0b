import StartEnd.Proofs.Canonical.Concrete
import StartEnd.Proofs.Concrete.Unique
import StartEnd.Proofs.Grammar.Language
import StartEnd.Proofs.Precedence.Expression

/-!
# How many constructs may be open

Bodies, `if` links, whole expressions, right operands and what stands between parentheses
are constructs. Every sentence is read in one way, which tells how many constructs are open
at each of its tokens. A parse succeeds exactly when there are at most 128 of them at every
token, and otherwise faults at the first token with more.

What stands side by side is not open at the same time. So neither the number of statements
nor that of typed names nor that of operators that group to the left matters.
-/

namespace StartEnd

/-- The level of the mark at an index, none behind the last mark. -/
def levelAt (marks : List Mark) (index : Nat) : Nat := (marks[index]?).elim 0 Mark.level

@[simp] theorem levelAt_cons_zero (first : Mark) (rest : List Mark) :
    levelAt (first :: rest) 0 = first.level := rfl

@[simp] theorem levelAt_cons_succ (first : Mark) (rest : List Mark) (index : Nat) :
    levelAt (first :: rest) (index + 1) = levelAt rest index := rfl

@[simp] theorem levelAt_nil (index : Nat) : levelAt [] index = 0 := rfl

/-- Marks need as many constructs as are open somewhere. -/
theorem peak_le_iff_levelAt {marks : List Mark} {limit : Nat} :
    peak marks ≤ limit ↔ ∀ index, levelAt marks index ≤ limit := by
  induction marks with
  | nil => simp
  | cons first rest inductionHypothesis =>
    rw [peak_cons, Nat.max_le, inductionHypothesis]
    constructor
    · rintro ⟨here, further⟩ index
      cases index with
      | zero => exact here
      | succ index => exact further index
    · intro everywhere
      exact ⟨everywhere 0, fun index => everywhere (index + 1)⟩

/-- Marks overflow at the first token at which more constructs are open than may be. -/
theorem overflow_of_first {depth index : Nat} {tokens : List Token} {marks : List Mark}
    (spelled : Spells tokens marks) (room : depth ≤ Parse.depthLimit)
    (above : Parse.depthLimit < depth + levelAt marks index)
    (first : ∀ earlier < index, depth + levelAt marks earlier ≤ Parse.depthLimit) :
    ∃ token, tokens[index]? = some token ∧ overflow depth tokens marks = some token := by
  induction marks generalizing tokens index with
  | nil =>
    rw [levelAt_nil] at above
    omega
  | cons mark marks inductionHypothesis =>
    obtain ⟨token, others, rfl, _, rest⟩ := spells_cons_iff.mp spelled
    cases index with
    | zero =>
      rw [levelAt_cons_zero] at above
      exact ⟨token, rfl, by rw [overflow_cons, if_pos above]⟩
    | succ index =>
      have below : depth + mark.level ≤ Parse.depthLimit := first 0 (Nat.succ_pos index)
      obtain ⟨found, inside, overflows⟩ := inductionHypothesis rest above fun earlier before =>
        first (earlier + 1) (Nat.succ_lt_succ before)
      refine ⟨found, inside, ?_⟩
      rw [overflow_cons, if_neg (Nat.not_lt.mpr below), overflows]

namespace Concrete

/-- The number of constructs that are open at a token of a program. -/
def Body.openAt (body : Body) (index : Nat) : Nat := levelAt body.programMarks index

/-- The statements of a body in order. -/
def Body.statements : Body → List Stmt
  | .nil => []
  | .cons first rest => first :: rest.statements

/-- A body needs as many constructs as one of its statements, however many there are. -/
theorem Body.peak_content_le_iff {body : Body} {limit : Nat} :
    peak body.content ≤ limit ↔ ∀ statement ∈ body.statements, peak statement.marks ≤ limit := by
  match body with
  | .nil => simp [Body.content, Body.statements]
  | .cons first rest =>
    rw [Body.content, peak_append, Nat.max_le, Body.peak_content_le_iff, Body.statements,
      List.forall_mem_cons]

/-- A program needs one construct more than its statements. -/
theorem Body.peak_programMarks {body : Body} (present : body ≠ .nil) :
    peak body.programMarks = peak body.content + 1 := by
  simp [Body.programMarks, peak_raised (Body.content_ne_nil present)]

/-- An operand with more operators and operands behind it, grouped to the left. -/
def Expr.chain (first : Expr) (more : List (Operator × Expr)) : Expr :=
  more.foldl (fun left pair => .binary left pair.1 pair.2) first

/-- A chain that groups to the left needs as many constructs as its first operand or one
more than another operand, however many there are. -/
theorem Expr.peak_chain_le_iff {first : Expr} {more : List (Operator × Expr)} {limit : Nat} :
    peak (Expr.chain first more).marks ≤ limit ↔
      peak first.marks ≤ limit ∧ ∀ pair ∈ more, peak pair.2.marks + 1 ≤ limit := by
  induction more generalizing first with
  | nil => simp [Expr.chain]
  | cons pair others inductionHypothesis =>
    have extended : peak (Expr.binary first pair.1 pair.2).marks ≤ limit ↔
        peak first.marks ≤ limit ∧ peak pair.2.marks + 1 ≤ limit := by
      rw [Expr.marks, Expr.marks, Expr.marks, peak_raised (Expr.content_ne_nil _),
        peak_raised (Expr.content_ne_nil _), Expr.content, peak_append, peak_cons,
        Mark.fixed_level, peak_raised (Expr.content_ne_nil _)]
      omega
    rw [List.forall_mem_cons, ← and_assoc, ← extended]
    exact inductionHypothesis

/-- Operands with operators of one precedence between them, all of which group to the
left. -/
structure Expr.IsLeftChain (precedence : Nat) (first : Expr) (more : List (Operator × Expr)) :
    Prop where
  first : first.Fits ∧ ∀ child ∈ first.root?, precedence ≤ child.precedence
  signs : ∀ pair ∈ more, pair.1.precedence = precedence ∧ pair.1.groupsRight = false
  operands : ∀ pair ∈ more, pair.2.Fits ∧ ∀ child ∈ pair.2.root?, precedence < child.precedence

/-- Operators of one precedence that group to the left are found as a chain. -/
theorem Expr.IsLeftChain.fits {precedence : Nat} {first : Expr} {more : List (Operator × Expr)}
    (isChain : IsLeftChain precedence first more) : (Expr.chain first more).Fits := by
  induction more generalizing first with
  | nil => exact isChain.first.1
  | cons pair others inductionHypothesis =>
    obtain ⟨⟨firstFits, loose⟩, signs, operands⟩ := isChain
    obtain ⟨⟨same, left⟩, otherSigns⟩ := List.forall_mem_cons.mp signs
    obtain ⟨⟨fits, tight⟩, otherOperands⟩ := List.forall_mem_cons.mp operands
    -- A root of the same precedence is held on the left only, so the chain grows there.
    have leftHeld : ∀ child ∈ first.root?, pair.1.holds false child := by
      intro child isRoot
      have atLeast := loose child isRoot
      simp only [Operator.holds, same, left, Bool.or_eq_true, decide_eq_true_eq,
        Bool.and_eq_true, and_true]
      omega
    have rightHeld : ∀ child ∈ pair.2.root?, pair.1.holds true child := by
      intro child isRoot
      have above := tight child isRoot
      simp only [Operator.holds, same, Bool.or_eq_true, decide_eq_true_eq]
      exact .inl above
    have rootLoose : ∀ child ∈ (Expr.binary first pair.1 pair.2).root?,
        precedence ≤ child.precedence := by
      intro child isRoot
      obtain rfl : pair.1 = child := by simpa [Expr.root?] using isRoot
      exact Nat.le_of_eq same.symm
    exact inductionHypothesis
      ⟨⟨⟨firstFits, fits, leftHeld, rightHeld⟩, rootLoose⟩, otherSigns, otherOperands⟩

end Concrete

namespace Parse

open Concrete

/-- A parse of tokens that write down a program succeeds exactly when the program needs at
most 128 constructs. -/
theorem tokens_ok_iff_peak {tokens : List Token} {body : Body}
    (reading : body.IsReadingOf tokens) :
    (∃ program, (Parse.tokens tokens).1 = .ok program) ↔ peak body.programMarks ≤ 128 := by
  obtain ⟨succeeds, fails⟩ := tokensAt_outcome (Nat.zero_le depthLimit) reading.1 reading.2
  rw [tokensAt_zero, Nat.zero_add] at succeeds fails
  constructor
  · rintro ⟨program, parsed⟩
    apply Nat.le_of_not_lt
    intro above
    obtain ⟨position, failed⟩ := fails above
    exact absurd (parsed.symm.trans failed) (by simp)
  · intro fits
    exact ⟨_, succeeds fits⟩

/-- A parse of tokens that write down a program faults at the first of them at which more
than 128 constructs are open. -/
theorem tokens_error_of_first {tokens : List Token} {body : Body}
    (reading : body.IsReadingOf tokens) {index : Nat} (above : 128 < body.openAt index)
    (first : ∀ earlier < index, body.openAt earlier ≤ 128) :
    ∃ token, (beforeEnding tokens)[index]? = some token ∧
      (Parse.tokens tokens).1 = .error ⟨.nestingTooDeep 128, token.span.start⟩ := by
  have outcome := tokensAt_exact (Nat.zero_le depthLimit) reading.1 reading.2
  obtain ⟨token, inside, overflows⟩ := overflow_of_first reading.2 (Nat.zero_le depthLimit)
    (by rwa [Nat.zero_add]) fun earlier before => by
      rw [Nat.zero_add]
      exact first earlier before
  rw [overflows] at outcome
  obtain ⟨after, ran⟩ := outcome
  exact ⟨token, inside, congrArg Prod.fst ran⟩

/-- A sentence is read in one way. Its parse succeeds exactly when at every token at most
128 constructs are open, and otherwise faults at the first token with more. So a program is
rejected for one of its statements only: in statements in a row, in typed names and in
operators that group to the left, the number does not matter. -/
theorem tokens_nesting {tokens : List Token}
    (sentence : (beforeEnding tokens).map Token.kind ∈ grammar.language) :
    (∃! body : Body, body.IsReadingOf tokens) ∧
    (∀ body : Body, body.IsReadingOf tokens →
      ((∃ program, (Parse.tokens tokens).1 = .ok program) ↔
        ∀ index, body.openAt index ≤ 128) ∧
      (∀ index, 128 < body.openAt index → (∀ earlier < index, body.openAt earlier ≤ 128) →
        ∃ token, (beforeEnding tokens)[index]? = some token ∧
          (Parse.tokens tokens).1 = .error ⟨.nestingTooDeep 128, token.span.start⟩) ∧
      ((∃ program, (Parse.tokens tokens).1 = .ok program) ↔
        ∀ statement ∈ body.statements, peak statement.marks ≤ 127)) ∧
    (∀ (inner : Body) (limit : Nat), peak inner.content ≤ limit ↔
      ∀ statement ∈ inner.statements, peak statement.marks ≤ limit) ∧
    (∀ parameters : List Parameter, peak (parameterMarks parameters) = 0) ∧
    ∀ (precedence : Nat) (first : Concrete.Expr) (more : List (Operator × Concrete.Expr)),
      Expr.IsLeftChain precedence first more → (Expr.chain first more).Fits ∧
        ∀ limit, peak (Expr.chain first more).marks ≤ limit ↔
          peak first.marks ≤ limit ∧ ∀ pair ∈ more, peak pair.2.marks + 1 ≤ limit := by
  obtain ⟨body, placed, spelled⟩ := exists_body_of_derives (mem_language_iff_derives.mp sentence)
  have reading : body.IsReadingOf tokens := ⟨placed, spelled⟩
  refine ⟨⟨body, reading, fun other otherReading => otherReading.unique reading⟩, ?_,
    fun inner limit => Body.peak_content_le_iff, peak_parameterMarks,
    fun precedence first more isChain => ⟨isChain.fits, fun limit => Expr.peak_chain_le_iff⟩⟩
  intro body reading
  refine ⟨?_, fun index => tokens_error_of_first reading, ?_⟩
  · rw [tokens_ok_iff_peak reading, peak_le_iff_levelAt]
    rfl
  · rw [tokens_ok_iff_peak reading, Body.peak_programMarks reading.1.2, Nat.succ_le_succ_iff,
      Body.peak_content_le_iff]

/-- A number between parentheses, as many as given. -/
def nestedNumber : Nat → Concrete.Expr
  | 0 => .number "1"
  | depth + 1 => .group (nestedNumber depth)

/-- The tokens of a number between parentheses. -/
def nestedTokens (span : Span) : Nat → List Token
  | 0 => [⟨.number, "1", span⟩]
  | depth + 1 => ⟨.openParen, "(", {}⟩ :: (nestedTokens span depth ++ [⟨.closeParen, ")", {}⟩])

/-- A program that assigns a number between parentheses. -/
def nestedBody (depth : Nat) : Body := .cons (.assign ⟨⟨"x"⟩, nestedNumber depth⟩) .nil

/-- The tokens of a program that assigns a number between parentheses. -/
def nestedProgram (span : Span) (depth : Nat) : List Token :=
  ⟨.startWord, "Start", {}⟩ :: ⟨.identifier, "x", {}⟩ :: ⟨.assignment, "=", {}⟩ ::
    (nestedTokens span depth ++ [⟨.endWord, "End", {}⟩])

/-- The number stands behind its opening parentheses. -/
theorem nestedProgram_middle (span : Span) (depth : Nat) :
    (nestedProgram span depth)[depth + 3]? = some ⟨.number, "1", span⟩ := by
  have middle : ∀ back, (nestedTokens span depth ++ back)[depth]? =
      some ⟨.number, "1", span⟩ := by
    induction depth with
    | zero => exact fun _ => rfl
    | succ depth inductionHypothesis =>
      intro back
      simpa [nestedTokens] using inductionHypothesis (⟨.closeParen, ")", {}⟩ :: back)
  exact middle _

/-- A number between parentheses is an expression of the grammar. -/
theorem derives_nestedTokens (span : Span) (depth : Nat) :
    Derives [.nonterminal .expr] (nestedTokens span depth) := by
  have lifted : ∀ tokens, Derives [.nonterminal .exp] tokens →
      Derives [.nonterminal .expr] tokens := by
    intro tokens isExp
    exact derives_of_body (production_mem .exprTerm) <|
      derives_of_body (production_mem .termFactor) <|
        derives_of_body (production_mem .factorExp) isExp
  apply lifted
  induction depth with
  | zero =>
    exact derives_of_body (production_mem .expDigit) <|
      derives_of_body (production_mem .digit) Relation.ReflTransGen.refl
  | succ depth inductionHypothesis =>
    have opened : Derives [.terminal .openParen] [⟨.openParen, "(", {}⟩] :=
      Relation.ReflTransGen.refl
    have closed : Derives [.terminal .closeParen] [⟨.closeParen, ")", {}⟩] :=
      Relation.ReflTransGen.refl
    exact derives_of_body (production_mem .expParen)
      (opened.append ((lifted _ inductionHypothesis).append closed))

/-- A program that assigns a number between parentheses is derived from the grammar. -/
theorem derives_nestedProgram (span : Span) (depth : Nat) :
    Derives [.nonterminal .program] (nestedProgram span depth) := by
  have begins : Derives [.terminal .startWord] [⟨.startWord, "Start", {}⟩] :=
    Relation.ReflTransGen.refl
  have named : Derives [.nonterminal .id] [⟨.identifier, "x", {}⟩] :=
    derives_of_body (production_mem .id) Relation.ReflTransGen.refl
  have assigns : Derives [.terminal .assignment] [⟨.assignment, "=", {}⟩] :=
    Relation.ReflTransGen.refl
  have ends : Derives [.terminal .endWord] [⟨.endWord, "End", {}⟩] := Relation.ReflTransGen.refl
  have assigned := derives_of_body (production_mem .assign)
    (named.append (assigns.append (derives_nestedTokens span depth)))
  have body := derives_of_body (production_mem .bodySingle)
    (derives_of_body (production_mem .conceptAssign) assigned)
  exact derives_of_body (production_mem .program) (begins.append (body.append ends))

/-- A program that assigns a number between parentheses is written with its tokens. -/
theorem spells_nestedProgram (span : Span) (depth : Nat) :
    Spells (nestedProgram span depth) (nestedBody depth).programMarks := by
  have value : Spells (nestedTokens span depth) (nestedNumber depth).content := by
    induction depth with
    | zero => rfl
    | succ depth inductionHypothesis =>
      have opened : Spells [⟨.openParen, "(", {}⟩] [.fixed .openParen] := rfl
      have closed : Spells [⟨.closeParen, ")", {}⟩] [.fixed .closeParen] := rfl
      exact opened.append ((spells_raised_iff.mpr inductionHypothesis).append closed)
  have front : Spells [⟨.startWord, "Start", {}⟩, ⟨.identifier, "x", {}⟩, ⟨.assignment, "=", {}⟩]
      [.fixed .startWord, .named "x", .fixed .assignment] := rfl
  have last : Spells [⟨.endWord, "End", {}⟩] [.fixed .endWord] := rfl
  have whole := front.append (value.append last)
  simpa [Spells, nestedProgram, nestedBody, Body.programMarks, Body.content, Stmt.marks,
    Assign.marks, Expr.marks] using whole

/-- A program that assigns a number between parentheses has no end of the input. -/
theorem beforeEnding_nestedProgram (span : Span) (depth : Nat) :
    beforeEnding (nestedProgram span depth) = nestedProgram span depth := by
  have visible : ∀ token ∈ nestedProgram span depth, token.kind ≠ .endOfInput := by
    apply (spells_nestedProgram span depth).visible_iff.mpr
    have inside := content_visible (nestedNumber depth)
    simpa [nestedBody, Body.programMarks, Body.content, Stmt.marks, Assign.marks, Expr.marks,
      raised, or_imp, forall_and] using inside
  simpa using beforeEnding_append visible []

/-- A parse finds the parentheses as they stand. -/
theorem isReadingOf_nestedProgram (span : Span) (depth : Nat) :
    (nestedBody depth).IsReadingOf (nestedProgram span depth) := by
  have fits : (nestedNumber depth).Fits := by
    induction depth with
    | zero => trivial
    | succ depth inductionHypothesis => exact inductionHypothesis
  have ended : Settles .lowest .endWord := by decide
  have stops : ¬ BeginsStatement .endWord := by decide
  constructor
  · exact ⟨⟨⟨fits, ended⟩, stops⟩, nofun⟩
  · rw [beforeEnding_nestedProgram]
    exact spells_nestedProgram span depth

/-- A number between 126 parentheses can be parsed. With 127 parentheses, the number itself is
the first token at which 129 constructs would be open. -/
theorem tokens_nesting_parentheses :
    let place : Position := ⟨137, 1, 138⟩
    (∃ program, (Parse.tokens (nestedProgram (.point place) 126)).1 = .ok program) ∧
      (Parse.tokens (nestedProgram (.point place) 127)).1 =
        .error ⟨.nestingTooDeep 128, place⟩ := by
  intro place
  have sentence : ∀ depth, (beforeEnding (nestedProgram (.point place) depth)).map Token.kind ∈
      grammar.language := by
    intro depth
    rw [beforeEnding_nestedProgram]
    exact mem_language_iff_derives.mpr (derives_nestedProgram _ depth)
  constructor
  · obtain ⟨_, outcome, _⟩ := tokens_nesting (sentence 126)
    obtain ⟨_, _, accepted⟩ := outcome _ (isReadingOf_nestedProgram _ 126)
    exact accepted.mpr (by decide +kernel)
  · obtain ⟨_, outcome, _⟩ := tokens_nesting (sentence 127)
    obtain ⟨_, rejected, _⟩ := outcome _ (isReadingOf_nestedProgram _ 127)
    obtain ⟨token, found, failed⟩ := rejected (127 + 3) (by decide +kernel) (by decide +kernel)
    rw [beforeEnding_nestedProgram, nestedProgram_middle] at found
    obtain rfl := Option.some.inj found
    exact failed

end Parse

end StartEnd
