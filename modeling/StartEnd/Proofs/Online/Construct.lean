import StartEnd.Proofs.Concrete.Expression
import StartEnd.Proofs.Online.Judgement

/-!
# Every construct is read online

Each parser of the language is online if the parsers of the constructs inside it are. The
parsers look at the next token before they consume it, or refuse it when they have consumed
it. The one place where a second token is looked at is the statement that begins with a
name, and there the first token is known.
-/

namespace StartEnd.Parse

variable {fact : Token.Kind → Prop}

/-- Parsers of expressions are online. -/
def OnlineExprs (inner : ExprParser) : Prop := ∀ place, Online (fun _ => True) (inner place)

section Expressions

variable {inner : ExprParser}

/-- A token that is no number or name is refused when it has been consumed. -/
theorem primary_online : Online fact primary := by
  refine Online.consume fun token => ?_
  by_cases isNumber : token.kind = .number
  · refine .inl ⟨by rw [isNumber]; decide, ?_⟩
    simp only [isNumber]
    exact (Online.reduce _).bind fun _ => (Online.reduce _).bind fun _ => .pure _
  by_cases isName : token.kind = .identifier
  · refine .inl ⟨by rw [isName]; decide, ?_⟩
    simp only [isName]
    exact (Online.reduce _).bind fun _ => (Online.reduce _).bind fun _ => .pure _
  refine .inr ⟨[.number, .identifier], ?_⟩
  split
  · exact absurd ‹_› isNumber
  · exact absurd ‹_› isName
  · rfl

/-- An expression between parentheses is read online. -/
theorem grouping_online (online : OnlineExprs inner) : Online fact (grouping inner) := by
  refine (Online.expect (by decide)).bind fun _ => (online .lowest).bind fun _ => ?_
  refine (Online.expect (by decide)).bind fun _ => (Online.reduce _).bind fun _ => ?_
  exact .pure _

/-- The leaf of any handler is read online. -/
theorem leafBy_online (online : OnlineExprs inner) (handler : LeafHandler) :
    Online fact (leafBy inner handler) := by
  cases handler with
  | primary => exact primary_online
  | grouping => exact grouping_online online

/-- An operator is refused when it has been consumed, and an exponent's sign before. -/
theorem operationBy_online (online : OnlineExprs inner) (left : Expr) (power : BindingPower)
    (handler : OperatorHandler) : Online fact (operationBy inner left power handler) := by
  cases handler with
  | binary =>
    refine Online.consume fun token => ?_
    rcases found : Operator.ofKind? token.kind with _ | operator
    · exact .inr ⟨[.dash, .star, .slash, .plus], rfl⟩
    · refine .inl ⟨fun isEnding => ?_, ?_⟩
      · rw [isEnding] at found
        exact nomatch (found : none = some operator)
      · exact (online power).bind fun _ => (Online.reduce _).bind fun _ => .pure _
  | exponent =>
    refine (Online.expect (by decide)).bind fun _ => ?_
    exact (online .multiplicative).bind fun _ => (Online.reduce _).bind fun _ => .pure _

/-- The loop over operators looks at one token behind each operand. -/
theorem operators_online (online : OnlineExprs inner) (place : BindingPower) (count : Nat)
    (left : Expr) (layer : Layer) : Online fact (operators inner place count left layer) := by
  induction count generalizing fact left layer with
  | zero => exact (Online.promote _ _).bind fun _ => .pure _
  | succ count inductionHypothesis =>
    refine Online.currentKind fun kind => ?_
    rcases found : (Tables.standard.power kind).filter
        (fun power => place.strength < power.strength) with _ | power
    · refine Online.tables ((Online.promote layer (.ofPlace place)).bind fun _ => .pure left)
        fun state standard => ?_
      simp only [standard, found]
    · obtain ⟨isPower, _⟩ := Option.filter_eq_some_iff.mp found
      obtain ⟨operator, rfl, rfl⟩ := exists_operator_of_power isPower
      have operation : Online (· = operator.kind) (do
          promote layer (.ofOperator operator.power)
          let extended ← operationBy inner left operator.power (handlerOf operator)
          operators inner place count extended (.ofOperator operator.power)) :=
        (Online.promote _ _).bind fun _ =>
          (operationBy_online online _ _ _).bind fun _ => inductionHypothesis _ _
      refine Online.tables operation fun state standard => ?_
      simp only [standard, found, standard_operator_operator]

/-- An expression is read online as a construct of its own. -/
theorem exprBy_online (steps : Nat) (online : OnlineExprs inner) :
    OnlineExprs (exprBy steps inner) := by
  intro place
  refine Online.construct (Online.currentKind fun kind => ?_)
  rcases found : Tables.standard.leaf kind with _ | handler
  · refine Online.tables (.unexpected Nonterminal.exp.first) fun state standard => ?_
    simp only [standard, found]
  · have operand : Online (· = kind) (do
        let left ← leafBy inner handler
        reduce .factorExp
        operators inner place steps left .factor) :=
      (leafBy_online online handler).bind fun _ =>
        (Online.reduce _).bind fun _ => operators_online online _ _ _ _
    refine Online.tables operand fun state standard => ?_
    simp only [standard, found]

/-- A comparison is read online. -/
theorem condition_online (online : OnlineExprs inner) : Online fact (condition inner) := by
  refine (online .lowest).known.bind fun _ => Online.currentKind fun kind => ?_
  rcases found : Comparison.ofKind? kind with _ | operator
  · exact .unexpected _
  · refine (Online.advance ?_).bind fun _ => ?_
    · rintro rfl
      exact nomatch (found : none = some operator)
    · refine (Online.reduce _).bind fun _ => (online .lowest).bind fun _ => ?_
      exact (Online.reduce _).bind fun _ => .pure _

end Expressions

/-- Parsers of constructs are online. -/
structure OnlineNested (inner : Nested) : Prop where
  expr : OnlineExprs inner.expr
  body : Online (fun _ => True) inner.body
  branch : Online (fun _ => True) inner.branch

section Statements

variable {inner : Nested}

/-- A name is read online. -/
theorem identifier_online : Online fact identifier :=
  (Online.expect (by decide)).bind fun _ => (Online.reduce _).bind fun _ => .pure _

/-- The name of a function is read online. -/
theorem functionName_online : Online fact functionName :=
  identifier_online.bind fun _ => (Online.reduce _).bind fun _ => .pure _

/-- A data type is read online. -/
theorem dataType_online : Online fact dataType := by
  refine Online.currentKind fun kind => ?_
  have keyword : Online (· = kind) dataTypeKeyword := by
    refine Online.consume fun token => ?_
    rcases found : DataType.ofKind? token.kind with _ | dataType
    · exact .inr ⟨Nonterminal.data.first, rfl⟩
    · refine .inl ⟨fun isEnding => ?_, (Online.reduce _).bind fun _ => .pure _⟩
      rw [isEnding] at found
      exact nomatch (found : none = some dataType)
  by_cases isType : Tables.standard.dataType kind = true
  · refine Online.tables keyword fun state standard => ?_
    simp only [standard, isType, ↓reduceIte]
  · refine Online.tables (.unexpected Nonterminal.data.first) fun state standard => ?_
    simp only [standard, isType, Bool.false_eq_true, ↓reduceIte]

/-- An assignment is read online. -/
theorem assign_online {expr : ExprParser} (online : OnlineExprs expr) :
    Online fact (assign expr) := by
  refine identifier_online.bind fun _ => (Online.expect (by decide)).bind fun _ => ?_
  exact (online .lowest).bind fun _ => (Online.reduce _).bind fun _ => .pure _

/-- Typed names between commas are read online. -/
theorem parametersWithin_online (count : Nat) : Online fact (parametersWithin count) := by
  have single {fact} : Online fact parameter :=
    dataType_online.bind fun _ => identifier_online.bind fun _ => .pure _
  induction count generalizing fact with
  | zero => exact single.bind fun _ => .pure _
  | succ count inductionHypothesis =>
    refine single.bind fun first => Online.currentKind fun kind => ?_
    split
    case isTrue isComma =>
      subst isComma
      refine (Online.advance (by decide)).bind fun _ => ?_
      exact inductionHypothesis.bind fun _ => .pure _
    case isFalse _ => exact .pure _

/-- Typed names are read online. -/
theorem parameters_online (steps : Nat) : Online fact (parameters steps) := by
  refine (parametersWithin_online _).bind fun _ => (Online.reduce _).bind fun _ => ?_
  exact (Online.reduceTimes _ _).bind fun _ => .pure _

/-- An assignment and a call are told apart by their second token. It is refused there, or
the name before it is consumed first. -/
theorem identifierStmt_online (online : OnlineNested inner) :
    Online (· = .identifier) (identifierStmt inner) := by
  refine Online.second (by decide) fun following => ?_
  by_cases isAssignment : following.kind = .assignment
  · simp only [isAssignment, assign, identifier, bind_assoc, pure_bind]
    refine .inr ⟨_, rfl, fun name => (Online.reduce _).bind fun _ => ?_⟩
    refine (Online.expect (by decide)).bind fun _ => (online.expr .lowest).bind fun _ => ?_
    exact (Online.reduce _).bind fun _ => .pure _
  by_cases isCall : following.kind = .openParen
  · simp only [isCall, call, functionName, identifier, bind_assoc, pure_bind]
    refine .inr ⟨_, rfl, fun name => (Online.reduce _).bind fun _ => ?_⟩
    refine (Online.reduce _).bind fun _ => (Online.expect (by decide)).bind fun _ => ?_
    refine (parameters_online _).bind fun _ => (Online.expect (by decide)).bind fun _ => ?_
    exact (Online.reduce _).bind fun _ => .pure _
  refine .inl ⟨[.openParen, .assignment], ?_⟩
  split
  · exact absurd ‹_› isAssignment
  · exact absurd ‹_› isCall
  · rfl

/-- The body of an `if` is read online, with or without braces. -/
theorem branchBody_online (online : OnlineNested inner) : Online fact (branchBody inner) := by
  refine Online.currentKind fun kind => ?_
  split
  case isTrue isOpen =>
    subst isOpen
    refine (Online.advance (by decide)).bind fun _ => online.body.bind fun _ => ?_
    exact (Online.expectBodyEnd (by decide)).bind fun _ => .pure _
  case isFalse _ => exact online.body.known

/-- An `if` link is read online as a construct of its own. -/
theorem branchBy_online (online : OnlineNested inner) : Online fact (branchBy inner) := by
  refine Online.construct ?_
  refine (Online.expect (by decide)).bind fun _ => (Online.expect (by decide)).bind fun _ => ?_
  refine (condition_online online.expr).bind fun _ => ?_
  refine (Online.expect (by decide)).bind fun _ => (branchBody_online online).bind fun _ => ?_
  refine Online.currentKind fun kind => ?_
  split
  case isTrue isElse =>
    subst isElse
    refine (Online.advance (by decide)).bind fun _ => ?_
    exact online.branch.bind fun _ => (Online.reduce _).bind fun _ => .pure _
  case isFalse _ => exact (Online.reduce _).bind fun _ => .pure _

/-- The advance of a loop is read online. -/
theorem step_online (online : OnlineNested inner) : Online fact (step inner) := by
  have moved {kind : Token.Kind} (visible : kind ≠ .endOfInput) (rule : Rule)
      (result : Identifier → Step) : Online (· = kind) (do
        let _ ← advance
        let name ← identifier
        reduce rule
        return result name) := by
    refine (Online.advance visible).bind fun _ => ?_
    exact identifier_online.bind fun _ => (Online.reduce _).bind fun _ => .pure _
  refine Online.currentKind fun kind => ?_
  split
  · exact moved (by decide) _ _
  · exact moved (by decide) _ _
  · exact (assign_online online.expr).bind fun _ => (Online.reduce _).bind fun _ => .pure _
  · exact .unexpected _

/-- A loop is read online. -/
theorem repetition_online (online : OnlineNested inner) : Online fact (repetition inner) := by
  refine (Online.expect (by decide)).bind fun _ => (Online.expect (by decide)).bind fun _ => ?_
  refine dataType_online.bind fun _ => (assign_online online.expr).bind fun _ => ?_
  refine (Online.expect (by decide)).bind fun _ => (condition_online online.expr).bind fun _ => ?_
  refine (Online.expect (by decide)).bind fun _ => (step_online online).bind fun _ => ?_
  refine (Online.expect (by decide)).bind fun _ => (Online.expect (by decide)).bind fun _ => ?_
  refine online.body.bind fun _ => (Online.expectBodyEnd (by decide)).bind fun _ => ?_
  exact (Online.reduce _).bind fun _ => .pure _

/-- A function is read online. -/
theorem function_online (online : OnlineNested inner) : Online fact (function inner) := by
  refine (Online.expect (by decide)).bind fun _ => dataType_online.bind fun _ => ?_
  refine (Online.reduce _).bind fun _ => functionName_online.bind fun _ => ?_
  refine (Online.expect (by decide)).bind fun _ => (parameters_online _).bind fun _ => ?_
  refine (Online.expect (by decide)).bind fun _ => (Online.expect (by decide)).bind fun _ => ?_
  refine online.body.bind fun _ => (Online.expectBodyEnd (by decide)).bind fun _ => ?_
  refine identifier_online.bind fun _ => (Online.expect (by decide)).bind fun _ => ?_
  exact (Online.reduce _).bind fun _ => .pure _

/-- The statement that the tables give for the next token is read online. -/
theorem statementBy_online (online : OnlineNested inner) {kind : Token.Kind}
    {handler : StatementHandler} (found : Tables.standard.statement kind = some handler) :
    Online (· = kind) (statementBy inner handler) := by
  cases handler with
  | identifier =>
    obtain rfl : kind = .identifier := by
      revert found
      cases kind <;> decide
    exact identifierStmt_online online
  | declaration =>
    refine dataType_online.bind fun _ => (assign_online online.expr).bind fun _ => ?_
    exact (Online.reduce _).bind fun _ => .pure _
  | branch => exact online.branch.known.bind fun _ => .pure _
  | repetition => exact repetition_online online
  | function => exact function_online online

/-- A statement is read online. -/
theorem statement_online (online : OnlineNested inner) : Online fact (statement inner) := by
  refine Online.currentKind fun kind => ?_
  rcases found : Tables.standard.statement kind with _ | handler
  · refine Online.tables (.unexpected Nonterminal.concept.first) fun state standard => ?_
    simp only [standard, found]
  · have selected : Online (· = kind) (do
        let statement ← statementBy inner handler
        reduce (statementRule statement)
        return statement) :=
      (statementBy_online online found).bind fun _ => (Online.reduce _).bind fun _ => .pure _
    refine Online.tables selected fun state standard => ?_
    simp only [standard, found]

/-- The loop over statements looks at one token behind each statement. -/
theorem moreStatements_online (online : OnlineNested inner) (count : Nat) :
    Online fact (moreStatements inner count) := by
  induction count generalizing fact with
  | zero => exact .pure _
  | succ count inductionHypothesis =>
    have begins : Online fact startsStatement := Online.currentKind fun kind =>
      Online.tables (.pure (Tables.standard.statement kind).isSome) fun state standard => by
        rw [standard]
    refine begins.bind fun starts => ?_
    split
    · exact (statement_online online).bind fun _ => inductionHypothesis.bind fun _ => .pure _
    · exact .pure _

/-- A body is read online as a construct of its own. -/
theorem bodyBy_online (online : OnlineNested inner) : Online fact (bodyBy inner) := by
  refine Online.construct ?_
  refine (statement_online online).bind fun _ => ?_
  refine (moreStatements_online online _).bind fun _ => (Online.reduce _).bind fun _ => ?_
  exact (Online.reduceTimes _ _).bind fun _ => .pure _

end Statements

/-- The parsers of constructs are online. The induction is over the constructs that may
still be opened. -/
theorem within_online (steps room : Nat) : OnlineNested (Nested.within steps room) := by
  induction room with
  | zero => exact ⟨fun _ => .tooDeep, .tooDeep, .tooDeep⟩
  | succ room inductionHypothesis =>
    exact ⟨exprBy_online steps inductionHypothesis.expr, bodyBy_online inductionHypothesis,
      branchBy_online inductionHypothesis⟩

end StartEnd.Parse
