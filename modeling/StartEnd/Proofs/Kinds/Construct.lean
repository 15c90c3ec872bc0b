import StartEnd.Proofs.Kinds.Composition

/-!
# Every parser of the language is a composition

Each parser is composed of the primitives and of the parsers of the constructs inside it,
for any content of the tables. Beside it stands its twin: the same parser, with the values
that it is given without their texts. So what holds of compositions holds of the whole
language. The induction is over the constructs that may still be opened.
-/

namespace StartEnd.Parse

variable {α : Type} {fact : Token.Kind → Prop} {held : List String} {form : Form α}

/-- A kind whose texts are fixed and that is no ending. -/
def Fixed (kind : Token.Kind) : Prop := kind.isOpen = false ∧ kind ≠ .endOfInput

instance (kind : Token.Kind) : Decidable (Fixed kind) := inferInstanceAs (Decidable (_ ∧ _))

/-- The words for data types are fixed. -/
theorem fixed_of_dataType {kind : Token.Kind} {dataType : DataType}
    (found : DataType.ofKind? kind = some dataType) : Fixed kind := by
  obtain rfl := (DataType.ofKind?_eq_some_iff kind dataType).mp found
  cases dataType <;> decide

/-- The signs of operators are fixed. -/
theorem fixed_of_operator {kind : Token.Kind} {operator : Operator}
    (found : Operator.ofKind? kind = some operator) : Fixed kind := by
  obtain rfl := (Operator.ofKind?_eq_some_iff kind operator).mp found
  cases operator <;> decide

/-- The signs of comparisons are fixed. -/
theorem fixed_of_comparison {kind : Token.Kind} {comparison : Comparison}
    (found : Comparison.ofKind? kind = some comparison) : Fixed kind := by
  obtain rfl := (Comparison.ofKind?_eq_some_iff kind comparison).mp found
  cases comparison <;> decide

/-- Looking at the next kind is looking at the next token. -/
theorem currentKind_bind (second : Token.Kind → Parse α) :
    currentKind >>= second = current >>= fun token => second token.kind := by
  simp [currentKind]

namespace Composed

/-- The kind of the next token is looked at. -/
theorem currentKind {second secondTwin : Nested → Token.Kind → Parse α}
    (rest : ∀ kind, Composed (· = kind) held form (fun inner => second inner kind)
      (fun inner => secondTwin inner kind)) :
    Composed fact held form (fun inner => Parse.currentKind >>= second inner)
      (fun inner => Parse.currentKind >>= secondTwin inner) := by
  simp only [currentKind_bind]
  refine .current fun token => ?_
  rw [Token.kind_erased]
  exact rest token.kind

/-- A fault at the next token. -/
theorem unexpected (expected : List Token.Kind) :
    Composed fact held form (fun _ => Parse.unexpected expected)
      (fun _ => Parse.unexpected expected) :=
  .current fun token => .throw (Fault.erased_unexpected token expected)

/-- A token of a fixed kind is consumed, which is known or refuses. -/
theorem skip {kind : Token.Kind} {second secondTwin : Nested → Token → Parse α}
    (fixed : Fixed kind)
    (rest : ∀ token, Composed (fun _ => True) held form (fun inner => second inner token)
      (fun inner => secondTwin inner token.erased)) :
    Composed (· = kind) held form (fun inner => Parse.advance >>= second inner)
      (fun inner => Parse.advance >>= secondTwin inner) := by
  refine .advance (fun token same => ?_) fun token same ends => ?_
  · subst same
    rw [openTexts_closed fixed.1, List.append_nil]
    exact rest token
  · exact absurd (same.symm.trans ends) fixed.2

/-- A token of a fixed kind is consumed. -/
theorem fixed {kind : Token.Kind} (fixed : Fixed kind) :
    Composed (· = kind) [] .fixed (fun _ => Parse.advance) (fun _ => Parse.advance) := by
  rw [← bind_pure Parse.advance]
  exact skip fixed fun _ => .pure rfl rfl

/-- The token of a name is consumed. -/
theorem named :
    Composed (· = .identifier) [] .named (fun _ => Parse.advance) (fun _ => Parse.advance) := by
  rw [← bind_pure Parse.advance]
  refine .advance (fun token same => ?_) fun token same ends => ?_
  · refine .pure ?_ ?_
    · rw [openTexts_open (by rw [same]; rfl)]
      rfl
    · simp [Form.named, Token.erased, same]
  · exact absurd (same.symm.trans ends) (by decide)

variable {kind : Token.Kind} {between : Form Token}

/-- A token is consumed if it is of the wanted kind, and reported otherwise. -/
theorem expect (taken : Composed (· = kind) [] between (fun _ => Parse.advance)
    (fun _ => Parse.advance)) :
    Composed fact [] between (fun _ => Parse.expect kind) (fun _ => Parse.expect kind) := by
  refine .currentKind fun found => ?_
  by_cases same : found = kind
  · simp only [same, if_true]
    exact taken
  · simp only [same, if_false]
    exact .unexpected _

/-- A token that closes a body is consumed, and any other is reported. -/
theorem expectBodyEnd (fixed : Fixed kind) :
    Composed fact [] .fixed (fun _ => Parse.expectBodyEnd kind)
      (fun _ => Parse.expectBodyEnd kind) := by
  refine .currentKind fun found => ?_
  by_cases same : found = kind
  · simp only [same, if_true]
    exact .fixed fixed
  · simp only [same, if_false]
    exact .unexpected _

/-- A token of a fixed kind is consumed, or another one is reported. -/
theorem expectFixed (fixed : Fixed kind) :
    Composed fact [] .fixed (fun _ => Parse.expect kind) (fun _ => Parse.expect kind) :=
  .expect (.fixed fixed)

/-- A production is logged several times. -/
theorem reduceTimes (rule : Rule) (count : Nat) :
    Composed fact [] (.silent : Form Unit) (fun _ => Parse.reduceTimes rule count)
      (fun _ => Parse.reduceTimes rule count) := by
  induction count generalizing fact with
  | zero => exact .pure rfl rfl
  | succ count inductionHypothesis => exact (Composed.reduce rule).bind fun _ => inductionHypothesis

/-- The steps between layers are logged. -/
theorem promote (low high : Layer) :
    Composed fact [] (.silent : Form Unit) (fun _ => Parse.promote low high)
      (fun _ => Parse.promote low high) := by
  cases low <;> cases high
  case factor.term => exact .reduce _
  case factor.expr => exact (Composed.reduce _).bind fun _ => .reduce _
  case term.expr => exact .reduce _
  all_goals exact .pure rfl rfl

end Composed

/-! ## Expressions -/

/-- A number or a name is its token. -/
theorem primary_composed : Composed fact [] .expr (fun _ => primary) (fun _ => primary) := by
  refine .advance (fun token _ => ?_) fun token _ ends => ?_
  · obtain ⟨kind, value, span⟩ := token
    cases kind
    case number | identifier =>
      exact (Composed.reduce _).bind fun _ => (Composed.reduce _).bind fun _ => .pure rfl rfl
    all_goals exact .throw (Fault.erased_unexpected _ _)
  · exact ⟨Fault.unexpected token [.number, .identifier], fun _ => by simp only [ends]⟩

/-- An expression between parentheses has the texts of the inner one. -/
theorem grouping_composed : Composed fact [] .expr (fun inner => grouping inner.expr)
    (fun inner => grouping inner.expr) := by
  refine (Composed.expectFixed (by decide)).bind fun _ => ?_
  refine (Composed.expr .lowest).bind fun expr => ?_
  refine (Composed.expectFixed (by decide)).bind fun _ => ?_
  exact (Composed.reduce _).bind fun _ => .pure (by simp) rfl

/-- The leaf of any handler is composed. -/
theorem leafBy_composed (handler : LeafHandler) :
    Composed fact [] .expr (fun inner => leafBy inner.expr handler)
      (fun inner => leafBy inner.expr handler) := by
  cases handler with
  | primary => exact primary_composed
  | grouping => exact grouping_composed

/-- The operation of any handler has the texts of its operands. -/
theorem operationBy_composed (left : Expr) (power : BindingPower) (handler : OperatorHandler) :
    Composed fact left.texts .expr (fun inner => operationBy inner.expr left power handler)
      (fun inner => operationBy inner.expr (left.relabel []) power handler) := by
  cases handler with
  | binary =>
    refine .advance (fun token _ => ?_) fun token _ ends => ?_
    · rw [Token.kind_erased]
      rcases found : Operator.ofKind? token.kind with _ | operator
      · exact .throw (Fault.erased_unexpected _ _)
      · rw [openTexts_closed (fixed_of_operator found).1]
        refine (Composed.expr power).bind fun right => (Composed.reduce _).bind fun _ => ?_
        exact .pure (by simp [Expr.texts]) (by simp [Expr.relabel])
    · have noOperator : Operator.ofKind? token.kind = none := ends ▸ rfl
      exact ⟨Fault.unexpected token [.dash, .star, .slash, .plus],
        fun _ => by simp only [noOperator]⟩
  | exponent =>
    refine (Composed.expectFixed (by decide)).bind fun _ => ?_
    refine (Composed.expr .multiplicative).bind fun right => (Composed.reduce _).bind fun _ => ?_
    exact .pure (by simp [Expr.texts]) (by simp [Expr.relabel])

/-- The loop over operators has the texts of all operands. The induction is over the rounds. -/
theorem operators_composed (place : BindingPower) (count : Nat) (left : Expr) (layer : Layer) :
    Composed fact left.texts .expr (fun inner => operators inner.expr place count left layer)
      (fun inner => operators inner.expr place count (left.relabel []) layer) := by
  have done {fact : Token.Kind → Prop} (left : Expr) (layer : Layer) :
      Composed fact left.texts .expr (fun _ => do promote layer (.ofPlace place); return left)
        (fun _ => do promote layer (.ofPlace place); return left.relabel []) :=
    (Composed.promote _ _).bind fun _ => .pure (by simp) rfl
  induction count generalizing fact left layer with
  | zero => exact done left layer
  | succ count inductionHypothesis =>
    refine .currentKind fun kind => .get fun state => ?_
    have same : state.erased.tables = state.tables := rfl
    dsimp only
    rw [same]
    generalize (state.tables.power kind).filter _ = tighter
    rcases tighter with _ | power
    · exact done left layer
    · rcases state.tables.operator kind with _ | handler
      · exact .unexpected _
      · refine (Composed.promote _ _).bind fun _ => ?_
        rw [Form.silent_texts, List.append_nil]
        exact (operationBy_composed left power handler).chain fun extended =>
          inductionHypothesis extended _

/-- An expression has the texts of its operands. -/
theorem exprContent_composed (steps : Nat) (place : BindingPower) :
    Composed fact [] .expr (fun inner => exprContent steps inner.expr place)
      (fun inner => exprContent steps inner.expr place) := by
  refine .currentKind fun kind => .get fun state => ?_
  have same : state.erased.tables = state.tables := rfl
  rw [same]
  rcases state.tables.leaf kind with _ | handler
  · exact .unexpected _
  · refine (leafBy_composed handler).chain fun left => (Composed.reduce _).bind fun _ => ?_
    rw [Form.silent_texts, List.append_nil]
    exact operators_composed place steps left .factor

/-- A comparison has the texts of its sides. -/
theorem condition_composed : Composed fact [] .condition (fun inner => condition inner.expr)
    (fun inner => condition inner.expr) := by
  refine (Composed.expr .lowest).bind fun left => .currentKind fun kind => ?_
  rcases found : Comparison.ofKind? kind with _ | operator
  · exact .unexpected _
  · refine .skip (fixed_of_comparison found) fun _ => (Composed.reduce _).bind fun _ => ?_
    refine (Composed.expr .lowest).bind fun right => (Composed.reduce _).bind fun _ => ?_
    exact .pure (by simp [Condition.texts]) (by simp [Condition.relabel])

/-! ## Statements -/

/-- A name is its token. -/
theorem identifier_composed :
    Composed fact [] .identifier (fun _ => identifier) (fun _ => identifier) := by
  refine (Composed.expect .named).bind fun token => (Composed.reduce _).bind fun _ => ?_
  exact .pure (by simp) (by simp [Form.named, Identifier.relabel])

/-- The name of a function is its token. -/
theorem functionName_composed :
    Composed fact [] .identifier (fun _ => functionName) (fun _ => functionName) := by
  refine identifier_composed.bind fun name => (Composed.reduce _).bind fun _ => ?_
  exact .pure (by simp) rfl

/-- The word for a data type has no text of its own. -/
theorem dataTypeKeyword_composed : Composed fact [] (.silent : Form DataType)
    (fun _ => dataTypeKeyword) (fun _ => dataTypeKeyword) := by
  refine .advance (fun token _ => ?_) fun token _ ends => ?_
  · rw [Token.kind_erased]
    rcases found : DataType.ofKind? token.kind with _ | dataType
    · exact .throw (Fault.erased_unexpected _ _)
    · rw [openTexts_closed (fixed_of_dataType found).1]
      exact (Composed.reduce _).bind fun _ => .pure rfl rfl
  · have noType : DataType.ofKind? token.kind = none := ends ▸ rfl
    exact ⟨Fault.unexpected token Nonterminal.data.first, fun _ => by simp only [noType]⟩

/-- A data type has no text of its own, whatever the tables take for one. -/
theorem dataType_composed : Composed fact [] (.silent : Form DataType) (fun _ => dataType)
    (fun _ => dataType) := by
  refine .currentKind fun kind => .get fun state => ?_
  have same : state.erased.tables = state.tables := rfl
  rw [same]
  rcases state.tables.dataType kind with _ | _
  · exact .unexpected _
  · exact dataTypeKeyword_composed

/-- An assignment has the texts of its name and of its expression. -/
theorem assign_composed : Composed fact [] .assign (fun inner => assign inner.expr)
    (fun inner => assign inner.expr) := by
  refine identifier_composed.bind fun target => ?_
  refine (Composed.expectFixed (by decide)).bind fun _ => ?_
  refine (Composed.expr .lowest).bind fun value => (Composed.reduce _).bind fun _ => ?_
  exact .pure (by simp [Assign.texts]) (by simp [Assign.relabel])

/-- A typed name has the text of its name. -/
theorem parameter_composed :
    Composed fact [] .parameter (fun _ => parameter) (fun _ => parameter) := by
  refine dataType_composed.bind fun dataType => identifier_composed.bind fun name => ?_
  exact .pure (by simp) rfl

/-- Typed names have the texts of all names. The induction is over the rounds. -/
theorem parametersWithin_composed (count : Nat) :
    Composed fact [] .parameters (fun _ => parametersWithin count)
      (fun _ => parametersWithin count) := by
  induction count generalizing fact with
  | zero =>
    refine parameter_composed.bind fun first => ?_
    exact .pure (by simp [Parameter.listTexts]) rfl
  | succ count inductionHypothesis =>
    refine parameter_composed.bind fun first => .currentKind fun kind => ?_
    by_cases more : kind = .comma
    · simp only [more, if_true]
      refine .skip (by decide) fun _ => inductionHypothesis.bind fun others => ?_
      exact .pure (by simp [Parameter.listTexts]) rfl
    · simp only [more, if_false]
      exact .pure (by simp [Parameter.listTexts]) rfl

/-- Typed names have the texts of all names. -/
theorem parameters_composed (count : Nat) :
    Composed fact [] .parameters (fun _ => parameters count) (fun _ => parameters count) := by
  refine (parametersWithin_composed count).bind fun found => (Composed.reduce _).bind fun _ => ?_
  rw [Form.parameters_erased, Parameter.length_relabelList]
  exact (Composed.reduceTimes _ _).bind fun _ => .pure (by simp) rfl

/-- Typed names between commas, as many as the loops allow. -/
theorem arguments_composed :
    Composed fact [] .parameters (fun inner => parameters inner.steps)
      (fun inner => parameters inner.steps) :=
  .steps parameters_composed

/-- A call has the texts of its names. -/
theorem call_composed : Composed fact [] .stmt call call := by
  refine functionName_composed.bind fun name => ?_
  refine (Composed.expectFixed (by decide)).bind fun _ => ?_
  refine arguments_composed.bind fun arguments => ?_
  refine (Composed.expectFixed (by decide)).bind fun _ => (Composed.reduce _).bind fun _ => ?_
  exact .pure (by simp [Stmt.texts]) (by simp [Stmt.relabel])

/-- What begins with a name has the texts of all its names and numbers. -/
theorem identifierStmt_composed : Composed fact [] .stmt identifierStmt identifierStmt := by
  refine .ahead 1 fun following => ?_
  have refuses : Composed (fun _ => True) [] .stmt
      (fun _ => throw (Fault.unexpected following [.openParen, .assignment]))
      (fun _ => throw (Fault.unexpected following.erased [.openParen, .assignment])) :=
    .throw (Fault.erased_unexpected _ _)
  rw [Token.kind_erased]
  generalize following.kind = kind
  cases kind
  case assignment =>
    refine assign_composed.bind fun assign => ?_
    exact .pure (by simp [Stmt.texts]) (by simp [Stmt.relabel])
  case openParen => exact call_composed
  all_goals exact refuses

/-- A declaration has the texts of its assignment. -/
theorem declaration_composed : Composed fact [] .stmt declaration declaration := by
  refine dataType_composed.bind fun dataType => assign_composed.bind fun assign => ?_
  refine (Composed.reduce _).bind fun _ => ?_
  exact .pure (by simp [Stmt.texts]) (by simp [Stmt.relabel])

/-- The body of an `if` has its texts, with or without braces. -/
theorem branchBody_composed : Composed fact [] .block branchBody branchBody := by
  refine .currentKind fun kind => ?_
  by_cases braced : kind = .openCurly
  · simp only [braced, if_true]
    refine .skip (by decide) fun _ => Composed.body.bind fun body => ?_
    exact (Composed.expectBodyEnd (by decide)).bind fun _ => .pure (by simp) rfl
  · simp only [braced, if_false]
    exact .body

/-- An `if` link has the texts of its parts. -/
theorem branchContent_composed : Composed fact [] .branch branchContent branchContent := by
  refine (Composed.expectFixed (by decide)).bind fun _ => ?_
  refine (Composed.expectFixed (by decide)).bind fun _ => ?_
  refine condition_composed.bind fun condition => ?_
  refine (Composed.expectFixed (by decide)).bind fun _ => ?_
  refine branchBody_composed.bind fun body => .currentKind fun kind => ?_
  by_cases more : kind = .elseWord
  · simp only [more, if_true]
    refine .skip (by decide) fun _ => Composed.branch.bind fun next => ?_
    refine (Composed.reduce _).bind fun _ => ?_
    exact .pure (by simp [Branch.texts]) (by simp [Branch.relabel])
  · simp only [more, if_false]
    refine (Composed.reduce _).bind fun _ => ?_
    exact .pure (by simp [Branch.texts]) (by simp [Branch.relabel])

/-- The advance of a loop has the texts of its name or assignment. -/
theorem step_composed : Composed fact [] .step step step := by
  refine .currentKind fun kind => ?_
  have byOne {rule : Rule} {build : Identifier → Step}
      (texts : ∀ name, (build name).texts = [name.value])
      (erased : ∀ name, (build name).relabel [] = build (name.relabel [])) :
      Composed (fun _ => True) [] .step
        (fun _ => do let name ← identifier; reduce rule; return build name)
        (fun _ => do let name ← identifier; reduce rule; return build name) := by
    refine identifier_composed.bind fun name => (Composed.reduce _).bind fun _ => ?_
    exact .pure (by simp [texts]) (erased name)
  cases kind
  case plusPlus => exact .skip (by decide) fun _ => byOne (fun _ => rfl) fun _ => rfl
  case minusMinus => exact .skip (by decide) fun _ => byOne (fun _ => rfl) fun _ => rfl
  case identifier =>
    refine assign_composed.bind fun assign => (Composed.reduce _).bind fun _ => ?_
    exact .pure (by simp [Step.texts]) (by simp [Step.relabel])
  all_goals exact .unexpected _

/-- A loop has the texts of its parts. -/
theorem repetition_composed : Composed fact [] .stmt repetition repetition := by
  refine (Composed.expectFixed (by decide)).bind fun _ => ?_
  refine (Composed.expectFixed (by decide)).bind fun _ => ?_
  refine dataType_composed.bind fun dataType => assign_composed.bind fun init => ?_
  refine (Composed.expectFixed (by decide)).bind fun _ => ?_
  refine condition_composed.bind fun condition => ?_
  refine (Composed.expectFixed (by decide)).bind fun _ => step_composed.bind fun step => ?_
  refine (Composed.expectFixed (by decide)).bind fun _ => ?_
  refine (Composed.expectFixed (by decide)).bind fun _ => Composed.body.bind fun body => ?_
  refine (Composed.expectBodyEnd (by decide)).bind fun _ => (Composed.reduce _).bind fun _ => ?_
  exact .pure (by simp [Stmt.texts]) (by simp [Stmt.relabel])

/-- A function has the texts of its names and of its body, in the order of the source. -/
theorem function_composed : Composed fact [] .stmt function function := by
  refine (Composed.expectFixed (by decide)).bind fun _ => ?_
  refine dataType_composed.bind fun returnType => (Composed.reduce _).bind fun _ => ?_
  refine functionName_composed.bind fun name => ?_
  refine (Composed.expectFixed (by decide)).bind fun _ => ?_
  refine arguments_composed.bind fun parameters => ?_
  refine (Composed.expectFixed (by decide)).bind fun _ => ?_
  refine (Composed.expectFixed (by decide)).bind fun _ => Composed.body.bind fun body => ?_
  refine (Composed.expectBodyEnd (by decide)).bind fun _ => ?_
  refine identifier_composed.bind fun result => ?_
  refine (Composed.expectFixed (by decide)).bind fun _ => (Composed.reduce _).bind fun _ => ?_
  exact .pure (by simp [Stmt.texts]) (by simp [Stmt.relabel])

/-- The statement of any handler is composed. -/
theorem statementBy_composed (handler : StatementHandler) :
    Composed fact [] .stmt (fun inner => statementBy inner handler)
      (fun inner => statementBy inner handler) := by
  cases handler with
  | identifier => exact identifierStmt_composed
  | declaration => exact declaration_composed
  | branch =>
    refine Composed.branch.bind fun link => ?_
    exact .pure (by simp [Stmt.texts]) (by simp [Stmt.relabel])
  | repetition => exact repetition_composed
  | function => exact function_composed

/-- Without its texts a statement is of the same production. -/
theorem statementRule_relabel (texts : List String) (statement : Stmt) :
    statementRule (statement.relabel texts) = statementRule statement := by
  cases statement <;> rfl

/-- A statement is what its handler gives. -/
theorem statement_composed : Composed fact [] .stmt statement statement := by
  refine .currentKind fun kind => .get fun state => ?_
  have same : state.erased.tables = state.tables := rfl
  rw [same]
  rcases state.tables.statement kind with _ | handler
  · exact .unexpected _
  · refine (statementBy_composed handler).bind fun found => ?_
    rw [Form.stmt_erased, statementRule_relabel]
    exact (Composed.reduce _).bind fun _ => .pure (by simp) rfl

/-- Whether a statement begins has no texts. -/
theorem startsStatement_composed :
    Composed fact [] (.silent : Form Bool) (fun _ => startsStatement) (fun _ => startsStatement) :=
  .currentKind fun _ => .get fun _ => .pure rfl rfl

/-- Further statements have the texts of each. The induction is over the rounds. -/
theorem moreStatements_composed (count : Nat) :
    Composed fact [] .stmts (fun inner => moreStatements inner count)
      (fun inner => moreStatements inner count) := by
  induction count generalizing fact with
  | zero => exact .pure rfl rfl
  | succ count inductionHypothesis =>
    refine startsStatement_composed.bind fun starts => ?_
    cases starts with
    | false => exact .pure rfl rfl
    | true =>
      refine statement_composed.bind fun first => inductionHypothesis.bind fun others => ?_
      exact .pure (by simp) rfl

/-- A body has the texts of its statements. -/
theorem bodyContent_composed : Composed fact [] .block bodyContent bodyContent := by
  refine statement_composed.bind fun first => ?_
  refine (Composed.steps moreStatements_composed).bind fun rest => ?_
  refine (Composed.reduce _).bind fun _ => ?_
  rw [Form.stmts_erased, List.length_map]
  refine (Composed.reduceTimes _ _).bind fun _ => .pure ?_ ?_
  · simp [Block.texts_ofList]
  · exact Block.relabel_nil_ofList (first :: rest)

/-! ## All constructs -/

/-- The parsers of constructs do the same on tokens without texts. The induction is over the
constructs that may still be opened. -/
theorem within_mirrors (steps room : Nat) : (Nested.within steps room).Mirrors := by
  induction room with
  | zero => exact ⟨fun _ => .tooDeep, .tooDeep, .tooDeep⟩
  | succ room inductionHypothesis =>
    exact ⟨fun place => ((exprContent_composed steps place).mirrors inductionHypothesis).construct,
      (bodyContent_composed.mirrors inductionHypothesis).construct,
      (branchContent_composed.mirrors inductionHypothesis).construct⟩

/-- The values of the parsers of constructs have the texts of the consumed tokens. The induction
is over the constructs that may still be opened. -/
theorem within_gathers (steps room : Nat) : (Nested.within steps room).Gathers := by
  induction room with
  | zero =>
    have never {α : Type} {form : Form α} : Gathers (fun _ => True) [] form tooDeep :=
      fun _ _ _ _ ran => absurd ran runOn_tooDeep_ne_ok
    exact ⟨fun _ => never, never, never⟩
  | succ room inductionHypothesis =>
    exact ⟨fun place => ((exprContent_composed steps place).gathers inductionHypothesis).construct,
      (bodyContent_composed.gathers inductionHypothesis).construct,
      (branchContent_composed.gathers inductionHypothesis).construct⟩

/-- The parsers of constructs close what they open. The induction is over the constructs that may
still be opened. -/
theorem within_balanced (steps room : Nat) : (Nested.within steps room).Balanced := by
  induction room with
  | zero =>
    have never {α : Type} : Balanced (fun _ => True) (tooDeep : Parse α) :=
      fun _ _ _ _ ran => absurd ran runOn_tooDeep_ne_ok
    exact ⟨fun _ => never, never, never⟩
  | succ room inductionHypothesis =>
    exact ⟨fun place => ((exprContent_composed steps place).balanced inductionHypothesis).construct,
      (bodyContent_composed.balanced inductionHypothesis).construct,
      (branchContent_composed.balanced inductionHypothesis).construct⟩

end StartEnd.Parse
