import StartEnd.Proofs.Precedence.Arrangement
import StartEnd.Proofs.Reading.Program

/-!
# Tokens are written in one way

Concrete phrases that are placed before what follows them and have the same lexemes, with
what follows, are the same phrase. So tokens write down at most one program as a parse
finds it: where each body ends, to which `if` an `else` belongs and which bodies stand
between braces can be told from the tokens.

Each lemma compares two phrases with what follows them. Their first lexemes decide which
forms they have, and then they are compared part by part.
-/

namespace StartEnd

namespace Concrete

/-- The kind of the first lexeme, or the end of the input if there is none. -/
def firstKind : List Lexeme → Token.Kind
  | [] => .endOfInput
  | first :: _ => first.kind

@[simp] theorem firstKind_cons (first : Lexeme) (rest : List Lexeme) :
    firstKind (first :: rest) = first.kind := rfl

/-- Operators are told apart by their kinds. -/
theorem operator_kind_injective {first second : Operator} (same : first.kind = second.kind) :
    first = second := by
  have found : Operator.ofKind? first.kind = some second :=
    (Operator.ofKind?_eq_some_iff _ _).mpr same
  rw [(Operator.ofKind?_eq_some_iff _ _).mpr rfl] at found
  exact Option.some.inj found

/-- Comparisons are told apart by their kinds. -/
theorem comparison_kind_injective {first second : Comparison} (same : first.kind = second.kind) :
    first = second := by
  have found : Comparison.ofKind? first.kind = some second :=
    (Comparison.ofKind?_eq_some_iff _ _).mpr same
  rw [(Comparison.ofKind?_eq_some_iff _ _).mpr rfl] at found
  exact Option.some.inj found

/-- Data types are told apart by their kinds. -/
theorem dataType_kind_injective {first second : DataType} (same : first.kind = second.kind) :
    first = second := by
  have found : DataType.ofKind? first.kind = some second :=
    (DataType.ofKind?_eq_some_iff _ _).mpr same
  rw [(DataType.ofKind?_eq_some_iff _ _).mpr rfl] at found
  exact Option.some.inj found

/-- What ends an expression is no operator. -/
theorem not_settles_operator (operator : Operator) : ¬ Parse.Settles .lowest operator.kind := by
  cases operator <;> decide

/-- A comparison ends an expression. -/
theorem settles_comparison (comparison : Comparison) :
    Parse.Settles .lowest comparison.kind := by
  cases comparison <;> decide

/-- A closing parenthesis ends an expression. -/
theorem settles_closeParen : Parse.Settles .lowest .closeParen := by decide

/-- A semicolon ends an expression. -/
theorem settles_semicolon : Parse.Settles .lowest .semicolon := by decide

mutual

/-- Operands with the same lexemes are the same. -/
theorem Operand.unique (operand other : Operand) {rest otherRest : List Lexeme}
    (same : operand.lexemes ++ rest = other.lexemes ++ otherRest) :
    operand = other ∧ rest = otherRest := by
  match operand, other with
  | .number digits, .number _ => simpa [Operand.lexemes] using same
  | .symbol ⟨name⟩, .symbol ⟨_⟩ => simpa [Operand.lexemes] using same
  | .group inner, .group otherInner =>
    simp only [Operand.lexemes, List.cons_append, List.append_assoc, List.cons.injEq, true_and]
      at same
    obtain ⟨rfl, rests⟩ := Sequence.unique inner otherInner same settles_closeParen
      settles_closeParen
    exact ⟨rfl, (List.cons.inj rests).2⟩
  | .number _, .symbol _ | .number _, .group _ | .symbol _, .number _ | .symbol _, .group _
  | .group _, .number _ | .group _, .symbol _ => simp [Operand.lexemes] at same

/-- Sequences with the same lexemes, before what is no operator, are the same. -/
theorem Sequence.unique (sequence other : Sequence) {rest otherRest : List Lexeme}
    (same : sequence.lexemes ++ rest = other.lexemes ++ otherRest)
    (ends : Parse.Settles .lowest (firstKind rest))
    (otherEnds : Parse.Settles .lowest (firstKind otherRest)) :
    sequence = other ∧ rest = otherRest := by
  match sequence, other with
  | .single operand, .single otherOperand =>
    obtain ⟨rfl, rests⟩ := Operand.unique operand otherOperand same
    exact ⟨rfl, rests⟩
  | .single operand, .more otherOperand sign more =>
    simp only [Sequence.lexemes, List.append_assoc, List.cons_append] at same
    obtain ⟨_, rfl⟩ := Operand.unique operand otherOperand same
    exact absurd ends (not_settles_operator sign)
  | .more operand sign more, .single otherOperand =>
    simp only [Sequence.lexemes, List.append_assoc, List.cons_append] at same
    obtain ⟨_, rfl⟩ := Operand.unique operand otherOperand same
    exact absurd otherEnds (not_settles_operator sign)
  | .more operand sign more, .more otherOperand otherSign otherMore =>
    simp only [Sequence.lexemes, List.append_assoc, List.cons_append] at same
    obtain ⟨rfl, further⟩ := Operand.unique operand otherOperand same
    obtain ⟨signs, following⟩ := List.cons.inj further
    obtain rfl := operator_kind_injective (Lexeme.mk.inj signs).1
    obtain ⟨rfl, rests⟩ := Sequence.unique more otherMore following ends otherEnds
    exact ⟨rfl, rests⟩

end

/-- Expressions that fit and have the same lexemes, before what is no operator, are the
same. -/
theorem Expr.unique {expr other : Expr} (fits : expr.Fits) (otherFits : other.Fits)
    {rest otherRest : List Lexeme}
    (same : lexemes expr.marks ++ rest = lexemes other.marks ++ otherRest)
    (ends : Parse.Settles .lowest (firstKind rest))
    (otherEnds : Parse.Settles .lowest (firstKind otherRest)) :
    expr = other ∧ rest = otherRest := by
  rw [Expr.marks, Expr.marks, lexemes_raised, lexemes_raised, Expr.lexemes_content,
    Expr.lexemes_content] at same
  obtain ⟨sequences, rests⟩ := Sequence.unique _ _ same ends otherEnds
  have arrangements : expr.sequence.arranged = other.sequence.arranged :=
    congrArg Sequence.arranged sequences
  rw [Expr.arranged_sequence fits, Expr.arranged_sequence otherFits] at arrangements
  exact ⟨arrangements, rests⟩

/-- Comparisons that fit and have the same lexemes are the same. -/
theorem Condition.unique {condition other : Condition} (fits : condition.Fits)
    (otherFits : other.Fits) {rest otherRest : List Lexeme}
    (same : lexemes condition.marks ++ rest = lexemes other.marks ++ otherRest)
    (ends : Parse.Settles .lowest (firstKind rest))
    (otherEnds : Parse.Settles .lowest (firstKind otherRest)) :
    condition = other ∧ rest = otherRest := by
  obtain ⟨left, sign, right⟩ := condition
  obtain ⟨otherLeft, otherSign, otherRight⟩ := other
  simp only [Condition.marks, lexemes_append, lexemes_cons, List.append_assoc,
    List.cons_append] at same
  obtain ⟨rfl, further⟩ := Expr.unique fits.1 otherFits.1 same (settles_comparison sign)
    (settles_comparison otherSign)
  obtain ⟨signs, following⟩ := List.cons.inj further
  obtain rfl := comparison_kind_injective (Lexeme.mk.inj signs).1
  obtain ⟨rfl, rests⟩ := Expr.unique fits.2 otherFits.2 following ends otherEnds
  exact ⟨rfl, rests⟩

/-- Assignments that fit and have the same lexemes are the same. -/
theorem Assign.unique {assign other : Assign} (fits : assign.value.Fits)
    (otherFits : other.value.Fits) {rest otherRest : List Lexeme}
    (same : lexemes assign.marks ++ rest = lexemes other.marks ++ otherRest)
    (ends : Parse.Settles .lowest (firstKind rest))
    (otherEnds : Parse.Settles .lowest (firstKind otherRest)) :
    assign = other ∧ rest = otherRest := by
  obtain ⟨⟨target⟩, value⟩ := assign
  obtain ⟨⟨otherTarget⟩, otherValue⟩ := other
  simp only [Assign.marks, lexemes_cons, List.cons_append, List.cons.injEq, true_and] at same
  obtain ⟨targets, further⟩ := same
  obtain rfl := (Lexeme.mk.inj targets).2
  obtain ⟨rfl, rests⟩ := Expr.unique fits otherFits further ends otherEnds
  exact ⟨rfl, rests⟩

/-- Advances that fit and have the same lexemes are the same. -/
theorem Step.unique {step other : Step} (fits : step.Fits) (otherFits : other.Fits)
    {rest otherRest : List Lexeme}
    (same : lexemes step.marks ++ rest = lexemes other.marks ++ otherRest)
    (ends : Parse.Settles .lowest (firstKind rest))
    (otherEnds : Parse.Settles .lowest (firstKind otherRest)) :
    step = other ∧ rest = otherRest := by
  match step, other with
  | .increment ⟨name⟩, .increment ⟨_⟩ => simpa [Step.marks, Mark.named] using same
  | .decrement ⟨name⟩, .decrement ⟨_⟩ => simpa [Step.marks, Mark.named] using same
  | .assign assignment, .assign otherAssignment =>
    obtain ⟨rfl, rests⟩ := Assign.unique fits otherFits same ends otherEnds
    exact ⟨rfl, rests⟩
  | .increment _, .decrement _ | .increment _, .assign _ | .decrement _, .increment _
  | .decrement _, .assign _ | .assign _, .increment _ | .assign _, .decrement _ =>
    simp [Step.marks, Assign.marks, Mark.fixed, Mark.named] at same

/-- Lists of typed names with the same lexemes, before what is no comma, are the same. -/
theorem parameters_unique {parameters others : List Parameter} (present : parameters ≠ [])
    (otherPresent : others ≠ []) {rest otherRest : List Lexeme}
    (same : lexemes (parameterMarks parameters) ++ rest =
      lexemes (parameterMarks others) ++ otherRest)
    (ends : firstKind rest ≠ .comma) (otherEnds : firstKind otherRest ≠ .comma) :
    parameters = others ∧ rest = otherRest := by
  match parameters, others with
  | [⟨dataType, ⟨name⟩⟩], [⟨otherType, ⟨otherName⟩⟩] =>
    simp only [parameterMarks, lexemes_cons, lexemes_nil, List.cons_append, List.nil_append,
      List.cons.injEq] at same
    obtain ⟨types, names, rests⟩ := same
    obtain rfl := dataType_kind_injective (Lexeme.mk.inj types).1
    obtain rfl := (Lexeme.mk.inj names).2
    exact ⟨rfl, rests⟩
  | ⟨dataType, ⟨name⟩⟩ :: second :: more, ⟨otherType, ⟨otherName⟩⟩ :: otherSecond :: otherMore =>
    simp only [parameterMarks, lexemes_cons, List.cons_append, List.cons.injEq, true_and] at same
    obtain ⟨types, names, further⟩ := same
    obtain rfl := dataType_kind_injective (Lexeme.mk.inj types).1
    obtain rfl := (Lexeme.mk.inj names).2
    obtain ⟨list, rests⟩ := parameters_unique (List.cons_ne_nil second more)
      (List.cons_ne_nil otherSecond otherMore) further ends otherEnds
    exact ⟨congrArg _ list, rests⟩
  | [_], _ :: _ :: _ =>
    simp only [parameterMarks, lexemes_cons, lexemes_nil, List.cons_append, List.nil_append,
      List.cons.injEq] at same
    obtain ⟨_, _, rfl⟩ := same
    exact absurd rfl ends
  | _ :: _ :: _, [_] =>
    simp only [parameterMarks, lexemes_cons, lexemes_nil, List.cons_append, List.nil_append,
      List.cons.injEq] at same
    obtain ⟨_, _, rfl⟩ := same
    exact absurd rfl otherEnds
  | [], _ => exact absurd rfl present
  | _, [] => exact absurd rfl otherPresent

/-- Statements before lexemes begin like the first statement, or else like the lexemes. -/
theorem firstKind_content (body : Body) (rest : List Lexeme) :
    firstKind (lexemes body.content ++ rest) = body.firstKind (firstKind rest) := by
  cases body with
  | nil => rfl
  | cons first others =>
    obtain ⟨mark, marks, same, isFirst⟩ := first.marks_eq_cons
    simp [Body.content, same, Body.firstKind, isFirst]

/-- Statements with the same lexemes begin with the same kind. -/
theorem Stmt.firstKind_eq {statement other : Stmt} {rest otherRest : List Lexeme}
    (same : lexemes statement.marks ++ rest = lexemes other.marks ++ otherRest) :
    statement.firstKind = other.firstKind := by
  obtain ⟨mark, marks, split, isFirst⟩ := statement.marks_eq_cons
  obtain ⟨otherMark, otherMarks, otherSplit, otherFirst⟩ := other.marks_eq_cons
  rw [split, otherSplit] at same
  rw [← isFirst, ← otherFirst]
  exact congrArg Lexeme.kind (List.cons.inj same).1

/-- A data type is no name and no word that begins another statement. -/
theorem dataType_kind_ne (dataType : DataType) :
    dataType.kind ≠ .identifier ∧ dataType.kind ≠ .ifWord ∧ dataType.kind ≠ .repWord ∧
      dataType.kind ≠ .funcWord := by
  cases dataType <;> decide

/-- A body is the only one with its lexemes, before what ends it. -/
def BodyUnique (body : Body) : Prop :=
  ∀ (other : Body) (rest otherRest : List Lexeme),
    lexemes body.content ++ rest = lexemes other.content ++ otherRest →
    body.Follow (firstKind rest) → other.Follow (firstKind otherRest) →
    body = other ∧ rest = otherRest

/-- Bodies of links with the same lexemes are the same and have the same braces. -/
theorem enclosed_unique {body other : Body} (unique : BodyUnique body) (present : body ≠ .nil)
    (otherPresent : other ≠ .nil) {braced otherBraced : Bool} {rest otherRest : List Lexeme}
    (same : lexemes (enclosed braced (raised body.content)) ++ rest =
      lexemes (enclosed otherBraced (raised other.content)) ++ otherRest)
    (follows : body.Follow (if braced then .closeCurly else firstKind rest))
    (otherFollows : other.Follow (if otherBraced then .closeCurly else firstKind otherRest)) :
    braced = otherBraced ∧ body = other ∧ rest = otherRest := by
  -- A body begins with a statement, which never begins with a brace.
  have noBrace : ∀ {body : Body} {rest : List Lexeme}, body ≠ .nil →
      firstKind (lexemes body.content ++ rest) ≠ .openCurly := by
    intro body rest present isBrace
    have begins := Body.beginsStatement_firstKind present (firstKind rest)
    rw [← firstKind_content, isBrace] at begins
    exact absurd begins (by decide)
  match braced, otherBraced with
  | true, true =>
    simp only [enclosed, ↓reduceIte, lexemes_cons, lexemes_append, lexemes_raised, lexemes_nil,
      List.cons_append, List.append_assoc, List.nil_append, List.cons.injEq, true_and] at same
    obtain ⟨rfl, rests⟩ := unique other _ _ same follows otherFollows
    exact ⟨rfl, rfl, (List.cons.inj rests).2⟩
  | false, false =>
    simp only [enclosed, Bool.false_eq_true, ↓reduceIte, lexemes_raised] at same
    obtain ⟨rfl, rests⟩ := unique other _ _ same follows otherFollows
    exact ⟨rfl, rfl, rests⟩
  | true, false =>
    simp only [enclosed, Bool.false_eq_true, ↓reduceIte, lexemes_cons, lexemes_raised,
      List.cons_append] at same
    exact absurd (congrArg firstKind same).symm (noBrace otherPresent)
  | false, true =>
    simp only [enclosed, Bool.false_eq_true, ↓reduceIte, lexemes_cons, lexemes_raised,
      List.cons_append] at same
    exact absurd (congrArg firstKind same) (noBrace present)

mutual

/-- Statements that are placed and have the same lexemes are the same. -/
theorem Stmt.unique (statement other : Stmt) {rest otherRest : List Lexeme}
    (same : lexemes statement.marks ++ rest = lexemes other.marks ++ otherRest)
    (placed : statement.Placed (firstKind rest))
    (otherPlaced : other.Placed (firstKind otherRest)) :
    statement = other ∧ rest = otherRest := by
  have kinds := Stmt.firstKind_eq same
  match statement, other with
  | .assign assignment, .assign otherAssignment =>
    obtain ⟨rfl, rests⟩ := Assign.unique placed.1 otherPlaced.1 same placed.2 otherPlaced.2
    exact ⟨rfl, rests⟩
  | .declaration dataType assignment, .declaration otherType otherAssignment =>
    obtain rfl := dataType_kind_injective kinds
    obtain ⟨rfl, rests⟩ := Assign.unique placed.1 otherPlaced.1 (List.cons.inj same).2
      placed.2 otherPlaced.2
    exact ⟨rfl, rests⟩
  | .branch link, .branch otherLink =>
    simp only [Stmt.marks, lexemes_raised] at same
    obtain ⟨rfl, rests⟩ := Link.unique link otherLink same placed otherPlaced
    exact ⟨rfl, rests⟩
  | .repetition dataType init condition step body,
    .repetition otherType otherInit otherCondition otherStep otherBody =>
    obtain ⟨initFits, conditionFits, stepFits, follows, present⟩ := placed
    obtain ⟨otherInitFits, otherConditionFits, otherStepFits, otherFollows, _⟩ := otherPlaced
    simp only [Stmt.marks, lexemes_cons, lexemes_append, lexemes_raised, lexemes_nil,
      List.cons_append, List.append_assoc, List.nil_append, List.cons.injEq, true_and] at same
    obtain ⟨types, fromInit⟩ := same
    obtain rfl := dataType_kind_injective (Lexeme.mk.inj types).1
    obtain ⟨rfl, afterInit⟩ := Assign.unique initFits otherInitFits fromInit settles_semicolon
      settles_semicolon
    obtain ⟨rfl, afterCondition⟩ := Condition.unique conditionFits otherConditionFits
      (List.cons.inj afterInit).2 settles_semicolon settles_semicolon
    obtain ⟨rfl, afterStep⟩ := Step.unique stepFits otherStepFits (List.cons.inj afterCondition).2
      settles_closeParen settles_closeParen
    simp only [List.cons.injEq, true_and] at afterStep
    obtain ⟨rfl, afterBody⟩ := Body.unique body otherBody afterStep follows otherFollows
    exact ⟨rfl, (List.cons.inj afterBody).2⟩
  | .function returnType ⟨name⟩ parameters body ⟨result⟩,
    .function otherType ⟨otherName⟩ otherParameters otherBody ⟨otherResult⟩ =>
    obtain ⟨listed, follows, present⟩ := placed
    obtain ⟨otherListed, otherFollows, _⟩ := otherPlaced
    simp only [Stmt.marks, lexemes_cons, lexemes_append, lexemes_raised, lexemes_nil,
      List.cons_append, List.append_assoc, List.nil_append, List.cons.injEq, true_and] at same
    obtain ⟨types, names, fromList⟩ := same
    obtain rfl := dataType_kind_injective (Lexeme.mk.inj types).1
    obtain rfl := (Lexeme.mk.inj names).2
    obtain ⟨rfl, afterList⟩ := parameters_unique listed otherListed fromList nofun nofun
    simp only [List.cons.injEq, true_and] at afterList
    obtain ⟨rfl, afterBody⟩ := Body.unique body otherBody afterList follows otherFollows
    simp only [List.cons.injEq, true_and] at afterBody
    obtain rfl := (Lexeme.mk.inj afterBody.1).2
    exact ⟨rfl, afterBody.2⟩
  | .call ⟨name⟩ arguments, .call ⟨otherName⟩ otherArguments =>
    simp only [Stmt.marks, lexemes_cons, lexemes_append, lexemes_nil, List.cons_append,
      List.append_assoc, List.nil_append, List.cons.injEq, true_and] at same
    obtain ⟨names, fromList⟩ := same
    obtain rfl := (Lexeme.mk.inj names).2
    obtain ⟨rfl, afterList⟩ := parameters_unique placed otherPlaced fromList nofun nofun
    exact ⟨rfl, (List.cons.inj afterList).2⟩
  -- The sign behind the name tells an assignment from a call.
  | .assign _, .call _ _ | .call _ _, .assign _ =>
    simp [Stmt.marks, Assign.marks, Mark.fixed] at same
  | .declaration dataType _, .assign _ | .declaration dataType _, .call _ _
  | .declaration dataType _, .branch _ | .declaration dataType _, .repetition _ _ _ _ _
  | .declaration dataType _, .function _ _ _ _ _ =>
    have others := dataType_kind_ne dataType
    simp_all [Stmt.firstKind]
  | .assign _, .declaration dataType _ | .call _ _, .declaration dataType _
  | .branch _, .declaration dataType _ | .repetition _ _ _ _ _, .declaration dataType _
  | .function _ _ _ _ _, .declaration dataType _ =>
    have others := dataType_kind_ne dataType
    simp_all [Stmt.firstKind, eq_comm]
  | .assign _, .branch _ | .assign _, .repetition _ _ _ _ _ | .assign _, .function _ _ _ _ _
  | .call _ _, .branch _ | .call _ _, .repetition _ _ _ _ _ | .call _ _, .function _ _ _ _ _
  | .branch _, .assign _ | .branch _, .call _ _ | .branch _, .repetition _ _ _ _ _
  | .branch _, .function _ _ _ _ _ | .repetition _ _ _ _ _, .assign _
  | .repetition _ _ _ _ _, .call _ _ | .repetition _ _ _ _ _, .branch _
  | .repetition _ _ _ _ _, .function _ _ _ _ _ | .function _ _ _ _ _, .assign _
  | .function _ _ _ _ _, .call _ _ | .function _ _ _ _ _, .branch _
  | .function _ _ _ _ _, .repetition _ _ _ _ _ => simp [Stmt.firstKind] at kinds

/-- Links that are placed and have the same lexemes are the same. -/
theorem Link.unique (link other : Link) {rest otherRest : List Lexeme}
    (same : lexemes link.content ++ rest = lexemes other.content ++ otherRest)
    (placed : link.Placed (firstKind rest)) (otherPlaced : other.Placed (firstKind otherRest)) :
    link = other ∧ rest = otherRest := by
  match link, other with
  | .last condition braced body, .last otherCondition otherBraced otherBody =>
    obtain ⟨fits, follows, present, _⟩ := placed
    obtain ⟨otherFits, otherFollows, otherPresent, _⟩ := otherPlaced
    simp only [Link.content, lexemes_cons, lexemes_append, List.cons_append, List.append_assoc,
      List.cons.injEq, true_and] at same
    obtain ⟨rfl, afterCondition⟩ := Condition.unique fits otherFits same settles_closeParen
      settles_closeParen
    obtain ⟨rfl, rfl, rests⟩ := enclosed_unique (fun _ _ _ => Body.unique body _) present
      otherPresent (List.cons.inj afterCondition).2 follows otherFollows
    exact ⟨rfl, rests⟩
  | .orElse condition braced body next, .orElse otherCondition otherBraced otherBody otherNext =>
    obtain ⟨fits, follows, present, further⟩ := placed
    obtain ⟨otherFits, otherFollows, otherPresent, otherFurther⟩ := otherPlaced
    simp only [Link.content, lexemes_cons, lexemes_append, lexemes_raised, List.cons_append,
      List.append_assoc, List.cons.injEq, true_and] at same
    obtain ⟨rfl, afterCondition⟩ := Condition.unique fits otherFits same settles_closeParen
      settles_closeParen
    obtain ⟨rfl, rfl, afterBody⟩ := enclosed_unique (fun _ _ _ => Body.unique body _) present
      otherPresent (List.cons.inj afterCondition).2 follows otherFollows
    obtain ⟨rfl, rests⟩ := Link.unique next otherNext (List.cons.inj afterBody).2 further
      otherFurther
    exact ⟨rfl, rests⟩
  -- The same body in front of an `else` and of something else.
  | .last condition braced body, .orElse otherCondition otherBraced otherBody otherNext =>
    obtain ⟨fits, follows, present, ends⟩ := placed
    obtain ⟨otherFits, otherFollows, otherPresent, _⟩ := otherPlaced
    simp only [Link.content, lexemes_cons, lexemes_append, List.cons_append, List.append_assoc,
      List.cons.injEq, true_and] at same
    obtain ⟨rfl, afterCondition⟩ := Condition.unique fits otherFits same settles_closeParen
      settles_closeParen
    obtain ⟨_, _, rfl⟩ := enclosed_unique (fun _ _ _ => Body.unique body _) present otherPresent
      (List.cons.inj afterCondition).2 follows otherFollows
    exact absurd rfl ends
  | .orElse condition braced body next, .last otherCondition otherBraced otherBody =>
    obtain ⟨fits, follows, present, _⟩ := placed
    obtain ⟨otherFits, otherFollows, otherPresent, ends⟩ := otherPlaced
    simp only [Link.content, lexemes_cons, lexemes_append, List.cons_append, List.append_assoc,
      List.cons.injEq, true_and] at same
    obtain ⟨rfl, afterCondition⟩ := Condition.unique fits otherFits same settles_closeParen
      settles_closeParen
    obtain ⟨_, _, rfl⟩ := enclosed_unique (fun _ _ _ => Body.unique body _) present otherPresent
      (List.cons.inj afterCondition).2 follows otherFollows
    exact absurd rfl ends

/-- Bodies that are found and have the same lexemes are the same. -/
theorem Body.unique (body other : Body) {rest otherRest : List Lexeme}
    (same : lexemes body.content ++ rest = lexemes other.content ++ otherRest)
    (follows : body.Follow (firstKind rest)) (otherFollows : other.Follow (firstKind otherRest)) :
    body = other ∧ rest = otherRest := by
  match body, other with
  | .nil, .nil => exact ⟨rfl, same⟩
  | .nil, .cons first others =>
    obtain rfl : rest = lexemes (Body.cons first others).content ++ otherRest := same
    rw [firstKind_content] at follows
    exact absurd first.beginsStatement_firstKind follows
  | .cons first others, .nil =>
    obtain rfl : lexemes (Body.cons first others).content ++ rest = otherRest := same
    rw [firstKind_content] at otherFollows
    exact absurd first.beginsStatement_firstKind otherFollows
  | .cons first others, .cons otherFirst otherOthers =>
    obtain ⟨placed, follows⟩ := follows
    obtain ⟨otherPlaced, otherFollows⟩ := otherFollows
    rw [← firstKind_content] at placed otherPlaced
    simp only [Body.content, lexemes_append, List.append_assoc] at same
    obtain ⟨rfl, further⟩ := Stmt.unique first otherFirst same placed otherPlaced
    obtain ⟨rfl, rests⟩ := Body.unique others otherOthers further follows otherFollows
    exact ⟨rfl, rests⟩

end

/-- The program that a parse finds in tokens: it is written with the tokens before the first
end of the input, and it is placed before the closing word. -/
def Body.IsReadingOf (body : Body) (tokens : List Token) : Prop :=
  body.Placed .endWord ∧ Spells (beforeEnding tokens) body.programMarks

/-- A program has the lexemes of its statements between two words. -/
theorem Body.lexemes_programMarks (body : Body) :
    lexemes body.programMarks =
      ⟨.startWord, ""⟩ :: (lexemes body.content ++ [⟨.endWord, ""⟩]) := by
  rw [Body.programMarks, lexemes_cons, lexemes_append, lexemes_raised]
  rfl

/-- A parse finds at most one program in tokens. -/
theorem Body.IsReadingOf.unique {body other : Body} {tokens : List Token}
    (reading : body.IsReadingOf tokens) (otherReading : other.IsReadingOf tokens) :
    body = other := by
  have same : lexemes body.programMarks = lexemes other.programMarks :=
    reading.2.symm.trans otherReading.2
  rw [Body.lexemes_programMarks, Body.lexemes_programMarks] at same
  exact (Body.unique body other (List.cons.inj same).2 reading.1.1 otherReading.1.1).1

end Concrete

end StartEnd
