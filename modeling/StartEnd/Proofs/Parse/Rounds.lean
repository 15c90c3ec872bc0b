import StartEnd.Proofs.Parse.Progress
import StartEnd.Proofs.Replay.Program

/-!
# Loops end by themselves

Every parser of a construct costs a token, for any content of the tables. So the number of
rounds that bounds the loops is of no consequence as soon as it exceeds the number of unread
items, and a parse of a stream is one with any bound that is large enough.
-/

namespace StartEnd.Parse

variable {bound : Nat}

/-- Parsers of expressions progress. -/
def ProgressExprs (bound : Nat) (inner twin : ExprParser) : Prop :=
  ∀ place, Progresses bound 1 (inner place) (twin place)

section Expressions

variable {inner twin : ExprParser}

/-- Steps between layers cost nothing. -/
theorem Progresses.promote (low high : Layer) :
    Progresses bound 0 (Parse.promote low high) (Parse.promote low high) := by
  refine silent () fun state => ?_
  cases low <;> cases high <;> exact ⟨_, rfl, rfl⟩

/-- A number or a name costs its token. -/
theorem primary_progresses : Progresses bound 1 primary primary := by
  refine Progresses.advanceVisible (fun token => ?_) fun token isEnding => ?_
  · split
    · exact (Progresses.reduce _).before fun _ => (Progresses.reduce _).before fun _ => .pure _
    · exact (Progresses.reduce _).before fun _ => (Progresses.reduce _).before fun _ => .pure _
    · exact .throw _
  · exact ⟨Fault.unexpected token [.number, .identifier], by simp only [isEnding]⟩

/-- An expression between parentheses costs the opening one. -/
theorem grouping_progresses (progress : ProgressExprs bound inner twin) :
    Progresses bound 1 (grouping inner) (grouping twin) := by
  refine (Progresses.expect (by decide)).bind fun _ => ?_
  refine (progress .lowest).further fun _ => ?_
  refine (Progresses.expect (by decide)).further fun _ => ?_
  exact (Progresses.reduce _).before fun _ => .pure _

/-- The leaf of any handler costs a token. -/
theorem leafBy_progresses (progress : ProgressExprs bound inner twin) (handler : LeafHandler) :
    Progresses bound 1 (leafBy inner handler) (leafBy twin handler) := by
  cases handler with
  | primary => exact primary_progresses
  | grouping => exact grouping_progresses progress

/-- The operation of any handler costs its sign. -/
theorem operationBy_progresses (progress : ProgressExprs bound inner twin) (left : Expr)
    (power : BindingPower) (handler : OperatorHandler) :
    Progresses bound 1 (operationBy inner left power handler)
      (operationBy twin left power handler) := by
  have operand (place : BindingPower) : Progresses bound 0 (inner place) (twin place) :=
    (progress place).weaken (Nat.le_refl _) (Nat.zero_le _)
  cases handler with
  | binary =>
    refine Progresses.advanceVisible (fun token => ?_) fun token isEnding => ?_
    · split
      · exact .throw _
      · exact (operand power).before fun _ => (Progresses.reduce _).before fun _ => .pure _
    · have noOperator : Operator.ofKind? token.kind = none := isEnding ▸ rfl
      exact ⟨Fault.unexpected token [.dash, .star, .slash, .plus], by simp only [noOperator]⟩
  | exponent =>
    refine (Progresses.expect (by decide)).bind fun _ => ?_
    exact (operand .multiplicative).before fun _ => (Progresses.reduce _).before fun _ => .pure _

/-- One round of the loop over operators, in front of any others. -/
def operatorsRound (inner : ExprParser) (place : BindingPower)
    (again : Expr → Layer → Parse Expr) (left : Expr) (layer : Layer) : Parse Expr := do
  let kind ← currentKind
  let tables := (← get).tables
  match (tables.power kind).filter fun power => place.strength < power.strength with
  | none =>
    promote layer (.ofPlace place)
    return left
  | some power =>
    match tables.operator kind with
    | none => unexpected Nonterminal.exp.first
    | some handler =>
      promote layer (.ofOperator power)
      let extended ← operationBy inner left power handler
      again extended (.ofOperator power)

/-- The rounds behind one over operators meet fewer unread items. -/
theorem operatorsRound_progresses (progress : ProgressExprs bound inner twin)
    (place : BindingPower) {again twinAgain : Expr → Layer → Parse Expr}
    (further : ∀ fewer < bound, ∀ left layer,
      Progresses fewer 0 (again left layer) (twinAgain left layer))
    (left : Expr) (layer : Layer) :
    Progresses bound 0 (operatorsRound inner place again left layer)
      (operatorsRound twin place twinAgain left layer) := by
  refine Progresses.currentKind.before fun kind => Progresses.get fun state => ?_
  dsimp only
  generalize (state.tables.power kind).filter _ = tighter
  rcases tighter with _ | power
  · exact (Progresses.promote _ _).before fun _ => .pure _
  · rcases state.tables.operator kind with _ | handler
    · exact .unexpected _
    · refine (Progresses.promote _ _).before fun _ => ?_
      have operation := (operationBy_progresses progress left power handler).bindLeft
        fun extended fewer less => further fewer (by omega) extended (.ofOperator power)
      exact operation.weaken (Nat.le_refl _) (Nat.zero_le _)

/-- What stands behind enough rounds over operators is of no consequence. -/
theorem operatorsRounds_progress (progress : ProgressExprs bound inner twin)
    (place : BindingPower) {count more : Nat} (rounds : bound < count) (moreRounds : bound < more)
    (further twinFurther : Expr → Layer → Parse Expr) (left : Expr) (layer : Layer) :
    Progresses bound 0 ((operatorsRound inner place)^[count] further left layer)
      ((operatorsRound twin place)^[more] twinFurther left layer) := by
  let related (bound : Nat) (again twinAgain : Expr → Layer → Parse Expr) : Prop :=
    ∀ left layer, Progresses bound 0 (again left layer) (twinAgain left layer)
  have all : related bound ((operatorsRound inner place)^[count] further)
      ((operatorsRound twin place)^[more] twinFurther) :=
    rounds_related related (fun _ few _ _ behind => operatorsRound_progresses
      (fun place => (progress place).weaken few (Nat.le_refl _)) place behind)
      rounds moreRounds _ _
  exact all left layer

/-- The loop over operators is made of rounds. -/
theorem operators_eq_rounds (inner : ExprParser) (place : BindingPower) (count : Nat) :
    operators inner place count =
      (operatorsRound inner place)^[count] (operators inner place 0) := by
  induction count with
  | zero => rfl
  | succ count inductionHypothesis =>
    rw [Function.iterate_succ_apply', ← inductionHypothesis]
    rfl

/-- The loop over operators ends by itself. -/
theorem operators_progresses (progress : ProgressExprs bound inner twin) (place : BindingPower)
    {count more : Nat} (rounds : bound < count) (moreRounds : bound < more) (left : Expr)
    (layer : Layer) :
    Progresses bound 0 (operators inner place count left layer)
      (operators twin place more left layer) := by
  rw [operators_eq_rounds inner, operators_eq_rounds twin]
  exact operatorsRounds_progress progress place rounds moreRounds _ _ left layer

/-- An expression costs its leaf. -/
theorem exprBy_progresses (progress : ProgressExprs bound inner twin) {steps more : Nat}
    (rounds : bound < steps) (moreRounds : bound < more) :
    ProgressExprs bound (exprBy steps inner) (exprBy more twin) := by
  intro place
  refine Progresses.construct ?_
  refine Progresses.currentKind.before fun kind => Progresses.get fun state => ?_
  rcases state.tables.leaf kind with _ | handler
  · exact .unexpected _
  · refine (leafBy_progresses progress handler).bind fun left => ?_
    refine (Progresses.reduce _).before fun _ => ?_
    exact operators_progresses progress place rounds moreRounds left .factor

/-- A comparison costs its first operand. -/
theorem condition_progresses (progress : ProgressExprs bound inner twin) :
    Progresses bound 1 (Parse.condition inner) (Parse.condition twin) := by
  refine (progress .lowest).bind fun left => Progresses.currentKind.before fun kind => ?_
  split
  · exact .unexpected _
  · refine Progresses.advance.before fun _ => (Progresses.reduce _).before fun _ => ?_
    refine (progress .lowest).further fun _ => ?_
    exact (Progresses.reduce _).before fun _ => .pure _

end Expressions

/-- Parsers of constructs progress, and have more rounds for loops than items are unread. -/
structure ProgressNested (bound : Nat) (inner twin : Nested) : Prop where
  rounds : bound < inner.steps
  moreRounds : bound < twin.steps
  expr : ProgressExprs bound inner.expr twin.expr
  body : Progresses bound 1 inner.body twin.body
  branch : Progresses bound 1 inner.branch twin.branch

section Statements

variable {inner twin : Nested}

/-- A name costs its token. -/
theorem identifier_progresses : Progresses bound 1 identifier identifier :=
  (Progresses.expect (by decide)).bind fun _ => (Progresses.reduce _).before fun _ => .pure _

/-- The name of a function costs its token. -/
theorem functionName_progresses : Progresses bound 1 functionName functionName :=
  identifier_progresses.bind fun _ => (Progresses.reduce _).before fun _ => .pure _

/-- A data type costs its word, whatever the tables take for one. -/
theorem dataType_progresses : Progresses bound 1 dataType dataType := by
  refine Progresses.currentKind.before fun kind => Progresses.get fun state => ?_
  split
  · refine Progresses.advanceVisible (fun token => ?_) fun token isEnding => ?_
    · split
      · exact .throw _
      · exact (Progresses.reduce _).before fun _ => .pure _
    · have noType : DataType.ofKind? token.kind = none := isEnding ▸ rfl
      exact ⟨Fault.unexpected token Nonterminal.data.first, by simp only [noType]⟩
  · exact .unexpected _

/-- An assignment costs its name. -/
theorem assign_progresses {inner twin : ExprParser} (progress : ProgressExprs bound inner twin) :
    Progresses bound 1 (assign inner) (assign twin) := by
  refine identifier_progresses.bind fun _ => ?_
  refine (Progresses.expect (by decide)).further fun _ => ?_
  refine (progress .lowest).further fun _ => ?_
  exact (Progresses.reduce _).before fun _ => .pure _

/-- A typed name costs the word for its type. -/
theorem parameter_progresses : Progresses bound 1 parameter parameter :=
  dataType_progresses.bind fun _ =>
    identifier_progresses.further fun _ => .pure _

/-- One round of a list of typed names, in front of any others. -/
def parametersRound (again : Parse (List Parameter)) : Parse (List Parameter) := do
  let first ← parameter
  if (← currentKind) = .comma then
    let _ ← advance
    return first :: (← again)
  else return [first]

/-- The rounds behind one over typed names meet fewer unread items. -/
theorem parametersRound_progresses {again twinAgain : Parse (List Parameter)}
    (further : ∀ fewer < bound, Progresses fewer 1 again twinAgain) :
    Progresses bound 1 (parametersRound again) (parametersRound twinAgain) := by
  show Progresses bound (1 + 0) (parametersRound again) (parametersRound twinAgain)
  refine parameter_progresses.bindLeft fun first fewer less => ?_
  refine Progresses.currentKind.before fun kind => ?_
  split
  · exact Progresses.advance.before fun _ => (further fewer (by omega)).further fun _ => .pure _
  · exact .pure _

/-- What stands behind enough rounds over typed names is of no consequence. -/
theorem parametersRounds_progress {count more : Nat} (rounds : bound < count)
    (moreRounds : bound < more) (further twinFurther : Parse (List Parameter)) :
    Progresses bound 1 (parametersRound^[count] further) (parametersRound^[more] twinFurther) :=
  rounds_related (Progresses · 1) (fun _ _ _ _ behind => parametersRound_progresses behind)
    rounds moreRounds _ _

/-- The loop over typed names is made of rounds. -/
theorem parametersWithin_eq_rounds (count : Nat) :
    parametersWithin count = parametersRound^[count] (parametersWithin 0) := by
  induction count with
  | zero => rfl
  | succ count inductionHypothesis =>
    rw [Function.iterate_succ_apply', ← inductionHypothesis]
    rfl

/-- A list of typed names ends by itself. -/
theorem parametersWithin_progresses {count more : Nat} (rounds : bound < count)
    (moreRounds : bound < more) :
    Progresses bound 1 (parametersWithin count) (parametersWithin more) := by
  rw [parametersWithin_eq_rounds count, parametersWithin_eq_rounds more]
  exact parametersRounds_progress rounds moreRounds _ _

/-- Typed names cost the first of them. -/
theorem parameters_progresses (rounds : bound < inner.steps) (moreRounds : bound < twin.steps) :
    Progresses bound 1 (parameters inner.steps) (parameters twin.steps) := by
  refine (parametersWithin_progresses rounds moreRounds).bind fun _ => ?_
  refine (Progresses.reduce _).before fun _ => ?_
  exact (Progresses.reduceTimes _ _).before fun _ => .pure _

/-- A call costs the name. -/
theorem call_progresses (progress : ProgressNested bound inner twin) :
    Progresses bound 1 (call inner) (call twin) := by
  refine functionName_progresses.bind fun _ => ?_
  refine (Progresses.expect (by decide)).further fun _ => ?_
  refine (parameters_progresses progress.rounds progress.moreRounds).further fun _ => ?_
  refine (Progresses.expect (by decide)).further fun _ => ?_
  exact (Progresses.reduce _).before fun _ => .pure _

/-- The body of an `if` costs the brace or a token of the body. -/
theorem branchBody_progresses (progress : ProgressNested bound inner twin) :
    Progresses bound 1 (branchBody inner) (branchBody twin) := by
  refine Progresses.currentKind.before fun kind => ?_
  split
  · refine Progresses.advance.before fun _ => progress.body.bind fun _ => ?_
    exact (Progresses.expectBodyEnd (by decide)).further fun _ => .pure _
  · exact progress.body

/-- An `if` link costs its word. -/
theorem branchBy_progresses (progress : ProgressNested bound inner twin) :
    Progresses bound 1 (branchBy inner) (branchBy twin) := by
  refine Progresses.construct ?_
  refine (Progresses.expect (by decide)).bind fun _ => ?_
  refine (Progresses.expect (by decide)).further fun _ => ?_
  refine (condition_progresses progress.expr).further fun _ => ?_
  refine (Progresses.expect (by decide)).further fun _ => ?_
  refine (branchBody_progresses progress).further fun _ => ?_
  refine Progresses.currentKind.before fun kind => ?_
  split
  · refine Progresses.advance.before fun _ => ?_
    refine progress.branch.further fun _ => ?_
    exact (Progresses.reduce _).before fun _ => .pure _
  · exact (Progresses.reduce _).before fun _ => .pure _

/-- The advance of a loop costs a name. -/
theorem step_progresses (progress : ProgressNested bound inner twin) :
    Progresses bound 1 (step inner) (step twin) := by
  refine Progresses.currentKind.before fun kind => ?_
  split
  · refine Progresses.advance.before fun _ => identifier_progresses.bind fun _ => ?_
    exact (Progresses.reduce _).before fun _ => .pure _
  · refine Progresses.advance.before fun _ => identifier_progresses.bind fun _ => ?_
    exact (Progresses.reduce _).before fun _ => .pure _
  · refine (assign_progresses progress.expr).bind fun _ => ?_
    exact (Progresses.reduce _).before fun _ => .pure _
  · exact .unexpected _

/-- A body and its closing token cost a token of the body. -/
theorem closedBody_progresses {α : Type} (progress : ProgressNested bound inner twin)
    {closing : Token.Kind} (visible : closing ≠ .endOfInput) {second : Block → Token → Parse α}
    (rest : ∀ body token, Progresses bound 0 (second body token) (second body token)) :
    Progresses bound 0
      (do let body ← inner.body; let token ← expectBodyEnd closing; second body token)
      (do let body ← twin.body; let token ← expectBodyEnd closing; second body token) := by
  refine progress.body.further fun body => ?_
  exact (Progresses.expectBodyEnd visible).further (rest body)

/-- A loop costs its word. -/
theorem repetition_progresses (progress : ProgressNested bound inner twin) :
    Progresses bound 1 (repetition inner) (repetition twin) := by
  refine (Progresses.expect (by decide)).bind fun _ => ?_
  refine (Progresses.expect (by decide)).further fun _ => ?_
  refine dataType_progresses.further fun _ => ?_
  refine (assign_progresses progress.expr).further fun _ => ?_
  refine (Progresses.expect (by decide)).further fun _ => ?_
  refine (condition_progresses progress.expr).further fun _ => ?_
  refine (Progresses.expect (by decide)).further fun _ => ?_
  refine (step_progresses progress).further fun _ => ?_
  refine (Progresses.expect (by decide)).further fun _ => ?_
  refine (Progresses.expect (by decide)).further fun _ => ?_
  refine closedBody_progresses progress (by decide) fun _ _ => ?_
  exact (Progresses.reduce _).before fun _ => .pure _

/-- A function costs its word. -/
theorem function_progresses (progress : ProgressNested bound inner twin) :
    Progresses bound 1 (function inner) (function twin) := by
  refine (Progresses.expect (by decide)).bind fun _ => ?_
  refine dataType_progresses.further fun _ => ?_
  refine (Progresses.reduce _).before fun _ => ?_
  refine functionName_progresses.further fun _ => ?_
  refine (Progresses.expect (by decide)).further fun _ => ?_
  refine (parameters_progresses progress.rounds progress.moreRounds).further fun _ => ?_
  refine (Progresses.expect (by decide)).further fun _ => ?_
  refine (Progresses.expect (by decide)).further fun _ => ?_
  refine closedBody_progresses progress (by decide) fun _ _ => ?_
  refine identifier_progresses.further fun _ => ?_
  refine (Progresses.expect (by decide)).further fun _ => ?_
  exact (Progresses.reduce _).before fun _ => .pure _

/-- The statement of any handler costs a token. -/
theorem statementBy_progresses (progress : ProgressNested bound inner twin)
    (handler : StatementHandler) :
    Progresses bound 1 (statementBy inner handler) (statementBy twin handler) := by
  cases handler with
  | identifier =>
    refine (Progresses.peek 1).before fun following => ?_
    split
    · exact (assign_progresses progress.expr).bind fun _ => .pure _
    · exact call_progresses progress
    · exact .throw _
  | declaration =>
    refine dataType_progresses.bind fun _ => ?_
    refine (assign_progresses progress.expr).further fun _ => ?_
    exact (Progresses.reduce _).before fun _ => .pure _
  | branch => exact progress.branch.bind fun _ => .pure _
  | repetition => exact repetition_progresses progress
  | function => exact function_progresses progress

/-- A statement costs a token. -/
theorem statement_progresses (progress : ProgressNested bound inner twin) :
    Progresses bound 1 (statement inner) (statement twin) := by
  refine Progresses.currentKind.before fun kind => Progresses.get fun state => ?_
  rcases state.tables.statement kind with _ | handler
  · exact .unexpected _
  · refine (statementBy_progresses progress handler).bind fun _ => ?_
    exact (Progresses.reduce _).before fun _ => .pure _

/-- What progresses with more items unread does so with fewer. -/
theorem ProgressNested.fewer {fewer : Nat} (progress : ProgressNested bound inner twin)
    (less : fewer ≤ bound) : ProgressNested fewer inner twin where
  rounds := Nat.lt_of_le_of_lt less progress.rounds
  moreRounds := Nat.lt_of_le_of_lt less progress.moreRounds
  expr := fun place => (progress.expr place).weaken less (Nat.le_refl _)
  body := progress.body.weaken less (Nat.le_refl _)
  branch := progress.branch.weaken less (Nat.le_refl _)

/-- One round of the loop over statements, in front of any others. -/
def statementsRound (inner : Nested) (again : Parse (List Stmt)) : Parse (List Stmt) := do
  if ← startsStatement then
    let first ← statement inner
    return first :: (← again)
  else return []

/-- The rounds behind one over statements meet fewer unread items. -/
theorem statementsRound_progresses (progress : ProgressNested bound inner twin)
    {again twinAgain : Parse (List Stmt)}
    (further : ∀ fewer < bound, Progresses fewer 0 again twinAgain) :
    Progresses bound 0 (statementsRound inner again) (statementsRound twin twinAgain) := by
  have begins : Progresses bound 0 startsStatement startsStatement :=
    Progresses.currentKind.before fun kind => Progresses.get fun state => .pure _
  refine begins.before fun starts => ?_
  split
  · have first := (statement_progresses progress).bindLeft fun first fewer less =>
      (further fewer (by omega)).before fun others => .pure (first :: others)
    exact first.weaken (Nat.le_refl _) (Nat.zero_le _)
  · exact .pure _

/-- What stands behind enough rounds over statements is of no consequence. -/
theorem statementsRounds_progress (progress : ProgressNested bound inner twin)
    {count more : Nat} (rounds : bound < count) (moreRounds : bound < more)
    (further twinFurther : Parse (List Stmt)) :
    Progresses bound 0 ((statementsRound inner)^[count] further)
      ((statementsRound twin)^[more] twinFurther) :=
  rounds_related (Progresses · 0)
    (fun _ few _ _ behind => statementsRound_progresses (progress.fewer few) behind)
    rounds moreRounds _ _

/-- The loop over statements is made of rounds. -/
theorem moreStatements_eq_rounds (inner : Nested) (count : Nat) :
    moreStatements inner count = (statementsRound inner)^[count] (moreStatements inner 0) := by
  induction count with
  | zero => rfl
  | succ count inductionHypothesis =>
    rw [Function.iterate_succ_apply', ← inductionHypothesis]
    rfl

/-- The loop over statements ends by itself. -/
theorem moreStatements_progresses (progress : ProgressNested bound inner twin) {count more : Nat}
    (rounds : bound < count) (moreRounds : bound < more) :
    Progresses bound 0 (moreStatements inner count) (moreStatements twin more) := by
  rw [moreStatements_eq_rounds inner, moreStatements_eq_rounds twin]
  exact statementsRounds_progress progress rounds moreRounds _ _

/-- A body costs its first statement. -/
theorem bodyBy_progresses (progress : ProgressNested bound inner twin) :
    Progresses bound 1 (bodyBy inner) (bodyBy twin) := by
  refine Progresses.construct ?_
  refine (statement_progresses progress).bind fun _ => ?_
  refine (moreStatements_progresses progress progress.rounds progress.moreRounds).before
    fun _ => ?_
  refine (Progresses.reduce _).before fun _ => ?_
  exact (Progresses.reduceTimes _ _).before fun _ => .pure _

end Statements

/-- The parsers of constructs progress, whatever number of rounds they have beyond the items
that may be unread. The induction is over the constructs that may still be opened. -/
theorem within_progresses {steps more : Nat} (rounds : bound < steps) (moreRounds : bound < more)
    (room : Nat) : ProgressNested bound (Nested.within steps room) (Nested.within more room) := by
  induction room with
  | zero => exact ⟨rounds, moreRounds, fun _ => .tooDeep, .tooDeep, .tooDeep⟩
  | succ room inductionHypothesis =>
    exact ⟨rounds, moreRounds, exprBy_progresses inductionHypothesis.expr rounds moreRounds,
      bodyBy_progresses inductionHypothesis, branchBy_progresses inductionHypothesis⟩

/-- The part of a program up to its closing word, with a bound on the rounds of every loop. -/
def untilEndWithin (steps : Nat) : Parse Block := do
  let _ ← expect .startWord
  let body ← (Nested.within steps depthLimit).body
  let _ ← expectBodyEnd .endWord
  return body

/-- At most all items ahead are unread. -/
theorem unread_le (state : State) :
    state.unread ≤ state.lookahead.length + state.stream.length := by
  have bound : state.unread ≤ state.upcoming.length := List.countP_le_length
  simpa [State.upcoming] using bound

/-- A parse of a stream has as many rounds for every loop as anyone wants, as long as there
are no fewer than items. -/
theorem untilEnd_initial {stream : List Item} {steps : Nat} (enough : stream.length ≤ steps) :
    runOn untilEnd (.initial stream) = runOn (untilEndWithin steps) (.initial stream) := by
  have ready : (State.initial stream).Ready := ⟨rfl, Nat.le_refl _⟩
  unfold untilEnd untilEndWithin
  rw [runOn_bind, runOn_bind]
  rcases expect_outcome .startWord ready with
    ⟨token, after, ran, isStart, consumes⟩ | ⟨fault, after, ran, _⟩
  · simp only [ran]
    have left : after.unread + 1 = (State.initial stream).unread :=
      consumes.unread (by rw [isStart]; decide)
    have all : (State.initial stream).unread ≤ stream.length := by
      simpa [State.initial] using unread_le (State.initial stream)
    have fresh : depthLimit - after.depth = depthLimit := by
      rw [consumes.depth]
      rfl
    have counted : runOn nested after = (.ok (Nested.within
        (after.lookahead.length + after.stream.length + 1) depthLimit), after) := by
      simp only [nested, pending, runOn_bind, runOn_get, runOn_pure, fresh]
    have rounds : after.unread < after.lookahead.length + after.stream.length + 1 :=
      Nat.lt_succ_of_le (unread_le after)
    have more : after.unread < steps := by omega
    have progress := (within_progresses more rounds depthLimit).body after (Nat.le_refl _)
    rw [runOn_bind, counted]
    simp only
    rw [runOn_bind, runOn_bind, progress.1]
  · simp only [ran]

/-- A parse of a stream has as many rounds for every loop as anyone wants, as long as there
are no fewer than items. -/
theorem items_eq_untilEndWithin {stream : List Item} {steps : Nat}
    (enough : stream.length ≤ steps) :
    items stream = runOn (do
        let body ← untilEndWithin steps
        let _ ← expect .endOfInput
        reduce .program
        return ⟨body⟩) (.initial stream) := by
  unfold items
  rw [program_eq_untilEnd, runOn_bind, runOn_bind, untilEnd_initial enough]

end StartEnd.Parse
