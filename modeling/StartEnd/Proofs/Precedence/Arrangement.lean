import StartEnd.Proofs.Concrete.Greedy

/-!
# The one arrangement of operands and operators

An expression without its grouping is a sequence of operands with operators between them.
An operand is a number, a name, or a sequence between parentheses. Every sequence is the
traversal of exactly one expression that fits, that is, in which every operator holds its
operands.

The expression is found from the end of the sequence: an operand and an operator in front
of an expression take its root for their right operand if the operator holds it, and else
go to the left operand of the root.
-/

namespace StartEnd

namespace Concrete

mutual

/-- What stands between operators. -/
inductive Operand where
  | number (digits : String)
  | symbol (name : Identifier)
  | group (inner : Sequence)

/-- Operands with operators between them. -/
inductive Sequence where
  | single (operand : Operand)
  | more (operand : Operand) (operator : Operator) (rest : Sequence)

end

mutual

/-- The lexemes of an operand. -/
def Operand.lexemes : Operand → List Lexeme
  | .number digits => [⟨.number, digits⟩]
  | .symbol name => [⟨.identifier, name.value⟩]
  | .group inner => { kind := .openParen } :: (inner.lexemes ++ [{ kind := .closeParen }])

/-- The lexemes of a sequence. -/
def Sequence.lexemes : Sequence → List Lexeme
  | .single operand => operand.lexemes
  | .more operand operator rest => operand.lexemes ++ { kind := operator.kind } :: rest.lexemes

end

namespace Sequence

/-- The operators of a sequence, without those between parentheses. -/
def operators : Sequence → List Operator
  | single _ => []
  | more _ operator rest => operator :: rest.operators

/-- Two sequences with an operator between them. -/
def join : Sequence → Operator → Sequence → Sequence
  | single operand, sign, back => more operand sign back
  | more operand operator rest, sign, back => more operand operator (rest.join sign back)

/-- Sequences in a row can be joined in any order. -/
theorem join_join (front middle back : Sequence) (first second : Operator) :
    (front.join first middle).join second back = front.join first (middle.join second back) := by
  match front with
  | single operand => rfl
  | more operand operator rest => simp only [join, join_join rest]

/-- Joined sequences have the operators of both and the one between them. -/
theorem operators_join (front back : Sequence) (sign : Operator) :
    (front.join sign back).operators = front.operators ++ sign :: back.operators := by
  match front with
  | single operand => rfl
  | more operand operator rest => simp [join, operators, operators_join rest]

/-- Joined sequences have the lexemes of both and of the operator between them. -/
theorem lexemes_join (front back : Sequence) (sign : Operator) :
    (front.join sign back).lexemes =
      front.lexemes ++ { kind := sign.kind } :: back.lexemes := by
  match front with
  | single operand => simp [join, lexemes]
  | more operand operator rest => simp [join, lexemes, lexemes_join rest]

end Sequence

namespace Expr

/-- The traversal of an expression from left to right. What stands between parentheses is
one operand. -/
def sequence : Expr → Sequence
  | number digits => .single (.number digits)
  | symbol name => .single (.symbol name)
  | group inner => .single (.group inner.sequence)
  | binary left operator right => left.sequence.join operator right.sequence

/-- An expression is written with the lexemes of its traversal. -/
theorem lexemes_content (expr : Expr) : lexemes expr.content = expr.sequence.lexemes := by
  induction expr with
  | number digits => rfl
  | symbol name => rfl
  | group inner inductionHypothesis =>
    simp [content, sequence, Sequence.lexemes, Operand.lexemes, inductionHypothesis, Mark.fixed]
  | binary left operator right leftHypothesis rightHypothesis =>
    simp [content, sequence, Sequence.lexemes_join, leftHypothesis, rightHypothesis, Mark.fixed]

/-- An expression with an operand and an operator in front of it. -/
def before (operand : Expr) (sign : Operator) : Expr → Expr
  | binary left operator right =>
    if sign.holds true operator then .binary operand sign (.binary left operator right)
    else .binary (operand.before sign left) operator right
  | leaf => .binary operand sign leaf

end Expr

mutual

/-- The expression of an operand. -/
def Operand.arranged : Operand → Expr
  | .number digits => .number digits
  | .symbol name => .symbol name
  | .group inner => .group inner.arranged

/-- The expression of a sequence. -/
def Sequence.arranged : Sequence → Expr
  | .single operand => operand.arranged
  | .more operand operator rest => operand.arranged.before operator rest.arranged

end

end Concrete

namespace Operator

/-- An operator that does not hold another one as its right operand is held by that one as
its left operand. -/
theorem holds_left_iff (first second : Operator) :
    second.holds false first = !first.holds true second := by
  cases first <;> cases second <;> rfl

/-- What holds the root of a left operand holds everything that the root holds. -/
theorem holds_left_trans {parent middle child : Operator} {onRight : Bool}
    (outer : parent.holds false middle = true) (inner : middle.holds onRight child = true) :
    parent.holds false child = true := by
  revert outer inner
  cases parent <;> cases middle <;> cases child <;> cases onRight <;> decide

end Operator

namespace Concrete.Expr

/-- An operand in front of an expression comes first in its traversal. -/
theorem sequence_before (operand expr : Expr) (sign : Operator) :
    (operand.before sign expr).sequence = operand.sequence.join sign expr.sequence := by
  induction expr with
  | number digits => rfl
  | symbol name => rfl
  | group inner inductionHypothesis => rfl
  | binary left operator right leftHypothesis rightHypothesis =>
    unfold before
    split
    · rfl
    · simp only [sequence, leftHypothesis, Sequence.join_join]

/-- The root of an expression with an operand in front of it is the new operator or the
former root. -/
theorem root?_before {operand expr : Expr} {sign child : Operator}
    (isRoot : child ∈ (operand.before sign expr).root?) :
    child = sign ∨ child ∈ expr.root? := by
  unfold before at isRoot
  split at isRoot
  · split at isRoot
    · exact .inl (Option.some.inj isRoot).symm
    · exact .inr isRoot
  · exact .inl (Option.some.inj isRoot).symm

/-- An operand without a root in front of an expression that fits gives one that fits. -/
theorem fits_before {operand expr : Expr} {sign : Operator} (operandFits : operand.Fits)
    (leaf : operand.root? = none) (fits : expr.Fits) : (operand.before sign expr).Fits := by
  have unheld : ∀ child ∈ operand.root?, sign.holds false child := by simp [leaf]
  induction expr with
  | number digits => exact ⟨operandFits, fits, unheld, nofun⟩
  | symbol name => exact ⟨operandFits, fits, unheld, nofun⟩
  | group inner inductionHypothesis => exact ⟨operandFits, fits, unheld, nofun⟩
  | binary left operator right leftHypothesis rightHypothesis =>
    obtain ⟨leftFits, rightFits, leftHeld, rightHeld⟩ := fits
    unfold before
    split
    case isTrue holds =>
      refine ⟨operandFits, ⟨leftFits, rightFits, leftHeld, rightHeld⟩, unheld, ?_⟩
      rintro child ⟨⟩
      exact holds
    case isFalse free =>
      refine ⟨leftHypothesis leftFits, rightFits, ?_, rightHeld⟩
      intro child isRoot
      rcases root?_before isRoot with rfl | former
      · rw [Operator.holds_left_iff]
        simpa using free
      · exact leftHeld child former

end Concrete.Expr

namespace Concrete

/-- An operand has no root. -/
theorem Operand.root?_arranged (operand : Operand) : operand.arranged.root? = none := by
  cases operand <;> rfl

mutual

/-- The expression of an operand fits. -/
theorem Operand.fits_arranged (operand : Operand) : operand.arranged.Fits := by
  match operand with
  | .number digits => trivial
  | .symbol name => trivial
  | .group inner => exact inner.fits_arranged

/-- The expression of a sequence fits. -/
theorem Sequence.fits_arranged (sequence : Sequence) : sequence.arranged.Fits := by
  match sequence with
  | .single operand => exact operand.fits_arranged
  | .more operand operator rest =>
    exact Expr.fits_before operand.fits_arranged operand.root?_arranged rest.fits_arranged

end

mutual

/-- The traversal of the expression of an operand is the operand. -/
theorem Operand.sequence_arranged (operand : Operand) :
    operand.arranged.sequence = .single operand := by
  match operand with
  | .number digits => rfl
  | .symbol name => rfl
  | .group inner => simp only [Operand.arranged, Expr.sequence, inner.sequence_arranged]

/-- The traversal of the expression of a sequence is the sequence. -/
theorem Sequence.sequence_arranged (sequence : Sequence) :
    sequence.arranged.sequence = sequence := by
  match sequence with
  | .single operand => exact operand.sequence_arranged
  | .more operand operator rest =>
    simp only [Sequence.arranged, Expr.sequence_before, operand.sequence_arranged,
      rest.sequence_arranged, Sequence.join]

end

namespace Sequence

/-- An expression with a sequence and an operator in front of it. -/
def before : Sequence → Operator → Expr → Expr
  | single operand, sign, expr => operand.arranged.before sign expr
  | more operand operator rest, sign, expr =>
    operand.arranged.before operator (rest.before sign expr)

/-- Joined sequences are arranged by putting the first one in front of the second one. -/
theorem arranged_join (front back : Sequence) (sign : Operator) :
    (front.join sign back).arranged = front.before sign back.arranged := by
  match front with
  | single operand => rfl
  | more operand operator rest => simp only [join, arranged, before, arranged_join rest]

/-- In front of an expression, joined sequences are put one after the other. -/
theorem before_join (front back : Sequence) (first second : Operator) (expr : Expr) :
    (front.join first back).before second expr = front.before first (back.before second expr) := by
  match front with
  | single operand => rfl
  | more operand operator rest => simp only [join, before, before_join rest]

/-- A sequence goes to the left operand of a root that none of its operators takes. -/
theorem before_binary {sequence : Sequence} {sign operator : Operator} {left right : Expr}
    (free : ∀ child ∈ sequence.operators, operator.holds false child = true)
    (last : operator.holds false sign = true) :
    sequence.before sign (.binary left operator right) =
      .binary (sequence.before sign left) operator right := by
  have passes : ∀ {child : Operator} {operand inner : Expr}, operator.holds false child = true →
      operand.before child (.binary inner operator right) =
        .binary (operand.before child inner) operator right := by
    intro child operand inner held
    rw [Operator.holds_left_iff] at held
    have untaken : child.holds true operator = false := by simpa using held
    simp [Expr.before, untaken]
  match sequence with
  | single operand => exact passes last
  | more operand first rest =>
    have further : ∀ child ∈ rest.operators, operator.holds false child = true :=
      fun child inside => free child (List.mem_cons_of_mem _ inside)
    rw [before, before_binary further last, passes (free first List.mem_cons_self), before]

end Sequence

namespace Expr

/-- What holds the root of an expression that fits, as its left operand, holds all operators
of its traversal. -/
theorem holds_operators {parent : Operator} {expr : Expr} (fits : expr.Fits)
    (held : ∀ child ∈ expr.root?, parent.holds false child) :
    ∀ child ∈ expr.sequence.operators, parent.holds false child = true := by
  induction expr generalizing parent with
  | number digits => exact nofun
  | symbol name => exact nofun
  | group inner inductionHypothesis => exact nofun
  | binary left operator right leftHypothesis rightHypothesis =>
    obtain ⟨leftFits, rightFits, leftHeld, rightHeld⟩ := fits
    have outer : parent.holds false operator = true := held operator rfl
    intro child inside
    rw [sequence, Sequence.operators_join] at inside
    rcases List.mem_append.mp inside with early | late
    · exact Operator.holds_left_trans outer (leftHypothesis leftFits leftHeld child early)
    · rcases List.mem_cons.mp late with rfl | late
      · exact outer
      · refine rightHypothesis rightFits (fun root isRoot => ?_) child late
        exact Operator.holds_left_trans outer (rightHeld root isRoot)

/-- An expression that fits is the arrangement of its traversal. In front of a right operand
it is the left operand of the operator between them, if that operator holds both. -/
theorem arranged_sequence_and_before {expr : Expr} (fits : expr.Fits) :
    expr.sequence.arranged = expr ∧
      ∀ (sign : Operator) (right : Expr), (∀ child ∈ expr.root?, sign.holds false child) →
        (∀ child ∈ right.root?, sign.holds true child) →
        expr.sequence.before sign right = .binary expr sign right := by
  have taken : ∀ {operand right : Expr} {sign : Operator},
      (∀ child ∈ right.root?, sign.holds true child) →
      operand.before sign right = .binary operand sign right := by
    intro operand right sign held
    cases right with
    | number digits => rfl
    | symbol name => rfl
    | group inner => rfl
    | binary left operator right =>
      have holds : sign.holds true operator = true := held operator rfl
      simp [before, holds]
  induction expr with
  | number digits => exact ⟨rfl, fun sign right _ held => taken held⟩
  | symbol name => exact ⟨rfl, fun sign right _ held => taken held⟩
  | group inner inductionHypothesis =>
    have same : (Operand.group inner.sequence).arranged = .group inner :=
      congrArg group (inductionHypothesis fits).1
    exact ⟨same, fun sign right _ held => by rw [sequence, Sequence.before, same, taken held]⟩
  | binary left operator right leftHypothesis rightHypothesis =>
    obtain ⟨leftFits, rightFits, leftHeld, rightHeld⟩ := fits
    obtain ⟨_, leftBefore⟩ := leftHypothesis leftFits
    obtain ⟨rightSame, rightBefore⟩ := rightHypothesis rightFits
    constructor
    · rw [sequence, Sequence.arranged_join, rightSame, leftBefore operator right leftHeld rightHeld]
    · -- The operator behind the expression takes the right operand first, and then every
      -- operator of the left operand passes it by.
      intro sign last held lastHeld
      have outer : sign.holds false operator = true := held operator rfl
      have rightOuter : ∀ child ∈ right.root?, sign.holds false child :=
        fun child isRoot => Operator.holds_left_trans outer (rightHeld child isRoot)
      have leftOuter : ∀ child ∈ left.sequence.operators, sign.holds false child = true :=
        fun child inside =>
          Operator.holds_left_trans outer (holds_operators leftFits leftHeld child inside)
      rw [sequence, Sequence.before_join, rightBefore sign last rightOuter lastHeld,
        Sequence.before_binary leftOuter outer, leftBefore operator right leftHeld rightHeld]

/-- An expression that fits is the arrangement of its traversal. -/
theorem arranged_sequence {expr : Expr} (fits : expr.Fits) : expr.sequence.arranged = expr :=
  (arranged_sequence_and_before fits).1

/-- Every sequence is the traversal of exactly one expression that fits. -/
theorem existsUnique_sequence (sequence : Sequence) :
    ∃! expr : Expr, expr.Fits ∧ expr.sequence = sequence := by
  refine ⟨sequence.arranged, ⟨sequence.fits_arranged, sequence.sequence_arranged⟩, ?_⟩
  rintro expr ⟨fits, rfl⟩
  exact (arranged_sequence fits).symm

end Expr

end Concrete

end StartEnd
