import StartEnd.Parse.Program
import StartEnd.Proofs.Concrete.Statement
import StartEnd.Proofs.Reading.Expression

/-!
# Reading statements and programs

The parser of statements reads every concrete statement before a token of a kind before
which the statement is placed. Constructs inside a statement are read by parsers with
room for one construct less, so the statement about all parsers is an induction over
the room that is left. Without room, every construct overflows at its first token.
-/

namespace StartEnd.Parse

open Concrete (parameterMarks parameterRules parametersRules enclosed bodyRules)

variable {α : Type} {depth steps : Nat} {marks : List Mark} {next : Token.Kind → Prop}
  {good : α → Prop} {rules : List Rule}

/-- Parsers of constructs read expressions, bodies and `if` links. -/
structure ReadsNested (depth steps : Nat) (inner : Nested) : Prop where
  bound : inner.steps = steps
  expr : ReadsExprs depth steps inner.expr
  body : ∀ (body : Concrete.Body) (kind : Token.Kind), body.Placed kind →
    body.content.length ≤ steps →
    Reads depth inner.body (raised body.content) (· = kind) (· = body.tree) body.rules
  branch : ∀ (link : Concrete.Link) (kind : Token.Kind), link.Placed kind →
    link.content.length ≤ steps →
    Reads depth inner.branch (raised link.content) (· = kind) (· = link.tree) link.rules

/-- A name is read. -/
theorem Reads.identifier {name : Identifier} {second : Identifier → Parse α}
    (reads : Reads depth (second name) marks next good rules) :
    Reads depth (Parse.identifier >>= second) (.named name.value :: marks) next good
      (.id :: rules) := by
  unfold Parse.identifier
  rw [bind_assoc]
  apply Reads.expect rfl rfl
  intro token spelled
  have value : token.value = name.value := Token.value_of_lexeme rfl spelled
  rw [bind_assoc]
  apply Reads.reduce
  rw [pure_bind, value]
  exact reads

/-- The name of a function is read. -/
theorem Reads.functionName {name : Identifier} {second : Identifier → Parse α}
    (reads : Reads depth (second name) marks next good rules) :
    Reads depth (Parse.functionName >>= second) (.named name.value :: marks) next good
      (.id :: .name :: rules) := by
  unfold Parse.functionName
  rw [bind_assoc]
  apply Reads.identifier
  rw [bind_assoc]
  apply Reads.reduce
  rw [pure_bind]
  exact reads

/-- The word for a data type is read. -/
theorem Reads.dataType {type : DataType} {second : DataType → Parse α}
    (reads : Reads depth (second type) marks next good rules) :
    Reads depth (Parse.dataType >>= second) (.fixed type.kind :: marks) next good
      (dataTypeRule type :: rules) := by
  unfold Parse.dataType
  rw [bind_assoc]
  apply Reads.currentKind
  rintro kind rfl
  rw [bind_assoc]
  apply Reads.tables
  intro state standard
  have known : state.tables.dataType (Mark.fixed type.kind).kind = true := by
    rw [standard]
    cases type <;> rfl
  rw [if_pos known]
  unfold dataTypeKeyword
  rw [bind_assoc]
  apply Reads.advance rfl
  intro token spelled
  have found : DataType.ofKind? token.kind = some type :=
    (DataType.ofKind?_eq_some_iff _ _).mpr (congrArg Lexeme.kind spelled)
  simp only [found, bind_assoc, pure_bind]
  exact Reads.reduce reads

/-- An assignment is read. -/
theorem assign_reads {inner : ExprParser} (reads : ReadsExprs depth steps inner)
    {assign : Concrete.Assign} (fits : assign.value.Fits)
    (room : assign.marks.length ≤ steps) :
    Reads depth (Parse.assign inner) assign.marks (Settles .lowest) (· = assign.tree)
      assign.rules := by
  have shorter : assign.value.content.length ≤ steps := by
    simp only [Concrete.Assign.marks, Concrete.Expr.marks, List.length_cons,
      length_raised] at room
    omega
  apply Reads.identifier
  apply Reads.expect rfl rfl
  intro _ _
  refine (reads .lowest assign.value fits assign.value.sitsAt_lowest shorter).bindLast ?_
    fun _ settles => settles
  rintro value rfl
  exact Reads.reduce (Reads.pure rfl)

/-- A typed name is read. -/
theorem Reads.parameter {parameter : Parameter} {second : Parameter → Parse α}
    (reads : Reads depth (second parameter) marks next good rules) :
    Reads depth (Parse.parameter >>= second)
      (.fixed parameter.dataType.kind :: .named parameter.name.value :: marks) next good
      (dataTypeRule parameter.dataType :: .id :: rules) := by
  unfold Parse.parameter
  rw [bind_assoc]
  apply Reads.dataType
  rw [bind_assoc]
  apply Reads.identifier
  rw [pure_bind]
  exact reads

/-- Typed names between commas are read up to a token that is no comma. -/
theorem parametersWithin_reads {count : Nat} {parameters : List Parameter}
    (present : parameters ≠ []) (room : parameters.length ≤ count + 1) :
    Reads depth (parametersWithin count) (parameterMarks parameters) (· ≠ .comma)
      (· = parameters) (parameterRules parameters) := by
  induction count generalizing parameters with
  | zero =>
    obtain ⟨only, rest, rfl⟩ := List.exists_cons_of_ne_nil present
    obtain rfl : rest = [] := List.length_eq_zero_iff.mp (by simpa using room)
    exact Reads.parameter (Reads.pure rfl)
  | succ count inductionHypothesis =>
    rcases parameters with _ | ⟨first, _ | ⟨second, rest⟩⟩
    · exact absurd rfl present
    · apply Reads.parameter
      apply Reads.currentKind
      intro kind other
      rw [if_neg other]
      exact Reads.pure rfl
    · apply Reads.parameter
      apply Reads.currentKind
      intro kind begun
      have isComma : kind = .comma := begun
      rw [if_pos isComma]
      apply Reads.advance rfl
      intro _ _
      have further : Reads depth (parametersWithin count) (parameterMarks (second :: rest))
          (· ≠ .comma) (· = second :: rest) (parameterRules (second :: rest)) :=
        inductionHypothesis (by simp) (by simpa using room)
      exact further.map (first :: ·) fun _ other => other

/-- Repeated productions are logged and read nothing. -/
theorem Reads.reduceTimes {rule : Rule} (count : Nat) {second : Unit → Parse α}
    (reads : Reads depth (second ()) marks next good rules) :
    Reads depth (Parse.reduceTimes rule count >>= second) marks next good
      (List.replicate count rule ++ rules) := by
  induction count with
  | zero =>
    rw [Parse.reduceTimes, pure_bind]
    exact reads
  | succ count inductionHypothesis =>
    rw [Parse.reduceTimes, bind_assoc]
    exact Reads.reduce inductionHypothesis

/-- A list of typed names is read up to a token that is no comma. -/
theorem parameters_reads {parameters : List Parameter} (present : parameters ≠ [])
    (room : parameters.length ≤ steps) :
    Reads depth (Parse.parameters steps) (parameterMarks parameters) (· ≠ .comma)
      (· = parameters) (parametersRules parameters) := by
  refine (parametersWithin_reads present (Nat.le_succ_of_le room)).bindLast ?_ fun _ other => other
  rintro value rfl
  apply Reads.reduce
  have repeated : Reads depth (do reduceTimes .parameterCons (value.length - 1); pure value) []
      (· ≠ .comma) (· = value) (List.replicate (value.length - 1) .parameterCons ++ []) :=
    Reads.reduceTimes _ (Reads.pure rfl)
  rwa [List.append_nil] at repeated

/-- A call is read. -/
theorem call_reads {inner : Nested} (reads : ReadsNested depth steps inner) {name : Identifier}
    {arguments : List Parameter} {kind : Token.Kind}
    (placed : (Concrete.Stmt.call name arguments).Placed kind)
    (room : (Concrete.Stmt.call name arguments).marks.length ≤ steps) :
    Reads depth (call inner) (Concrete.Stmt.call name arguments).marks (· = kind)
      (· = .call name arguments) (Concrete.Stmt.call name arguments).rules := by
  have shorter : arguments.length ≤ steps := by
    have bound := Concrete.length_le_parameterMarks arguments
    simp only [Concrete.Stmt.marks, List.length_cons, List.length_append] at room
    omega
  unfold call
  rw [reads.bound]
  apply Reads.functionName
  refine Reads.expect rfl rfl fun _ _ => ?_
  refine (parameters_reads placed shorter).bind ?_ ?_
  · rintro value rfl
    exact Reads.expect rfl rfl fun _ _ => Reads.reduce (Reads.pure rfl)
  · rintro kind rfl
    decide

/-- A name before an assignment sign begins an assignment. -/
theorem identifierStmt_reads_assign {inner : Nested} (reads : ReadsNested depth steps inner)
    {assignment : Concrete.Assign} {kind : Token.Kind}
    (placed : (Concrete.Stmt.assign assignment).Placed kind)
    (room : assignment.marks.length ≤ steps) :
    Reads depth (identifierStmt inner) assignment.marks (· = kind)
      (· = .assign assignment.tree) assignment.rules := by
  obtain ⟨fits, settles⟩ := placed
  apply Reads.peekSecond
  intro following same
  have isAssignment : following.kind = .assignment := same
  simp only [isAssignment]
  apply (assign_reads reads.expr fits room).map StartEnd.Stmt.assign
  rintro _ rfl
  exact settles

/-- A name before a parenthesis begins a call. -/
theorem identifierStmt_reads_call {inner : Nested} (reads : ReadsNested depth steps inner)
    {name : Identifier} {arguments : List Parameter} {kind : Token.Kind}
    (placed : (Concrete.Stmt.call name arguments).Placed kind)
    (room : (Concrete.Stmt.call name arguments).marks.length ≤ steps) :
    Reads depth (identifierStmt inner) (Concrete.Stmt.call name arguments).marks (· = kind)
      (· = .call name arguments) (Concrete.Stmt.call name arguments).rules := by
  apply Reads.peekSecond
  intro following same
  have isOpening : following.kind = .openParen := same
  simp only [isOpening]
  exact call_reads reads placed room

/-- A declaration is read. -/
theorem declaration_reads {inner : Nested} (reads : ReadsNested depth steps inner)
    {dataType : DataType} {assignment : Concrete.Assign} {kind : Token.Kind}
    (placed : (Concrete.Stmt.declaration dataType assignment).Placed kind)
    (room : (Concrete.Stmt.declaration dataType assignment).marks.length ≤ steps) :
    Reads depth (declaration inner) (Concrete.Stmt.declaration dataType assignment).marks
      (· = kind) (· = .declaration dataType assignment.tree)
      (Concrete.Stmt.declaration dataType assignment).rules := by
  obtain ⟨fits, settles⟩ := placed
  have shorter : assignment.marks.length ≤ steps := Nat.le_of_succ_le room
  apply Reads.dataType
  refine (assign_reads reads.expr fits shorter).bindLast ?_ ?_
  · rintro value rfl
    exact Reads.reduce (Reads.pure rfl)
  · rintro _ rfl
    exact settles

/-- The statements of a body begin with the first kind of the body. -/
theorem begins_content {body : Concrete.Body} {kind found : Token.Kind}
    (begun : Begins body.content (· = kind) found) : found = body.firstKind kind := by
  cases body with
  | nil => exact begun
  | cons first rest =>
    obtain ⟨mark, others, same, firstKind⟩ := first.marks_eq_cons
    simp only [Concrete.Body.content, same] at begun
    exact begun.trans firstKind

/-- A body with a statement begins like a statement. -/
theorem beginsStatement_of_body {body : Concrete.Body} {kind found : Token.Kind}
    (present : body ≠ .nil) (begun : Begins (raised body.content) (· = kind) found) :
    BeginsStatement found := by
  rw [begins_content (begins_raised_iff.mp begun)]
  cases body with
  | nil => exact absurd rfl present
  | cons first rest => exact first.beginsStatement_firstKind

/-- The body of a link is read with its braces, if it has them. -/
theorem branchBody_reads {inner : Nested} (reads : ReadsNested depth steps inner)
    {body : Concrete.Body} {braced : Bool} {kind : Token.Kind}
    (placed : body.Placed (if braced then .closeCurly else kind))
    (room : body.content.length ≤ steps) :
    Reads depth (branchBody inner) (enclosed braced (raised body.content)) (· = kind)
      (· = body.tree) body.rules := by
  cases braced with
  | true =>
    apply Reads.currentKind
    intro found begun
    have isOpening : found = .openCurly := begun
    rw [if_pos isOpening]
    apply Reads.advance rfl
    intro _ _
    have closes : ∀ value, value = body.tree →
        Reads depth (do let _ ← expectBodyEnd .closeCurly; pure value) [.fixed .closeCurly]
          (· = kind) (· = body.tree) [] := by
      rintro value rfl
      exact Reads.expectBodyEnd rfl rfl fun _ _ => Reads.pure rfl
    have whole := (reads.body body .closeCurly placed room).bind closes fun _ begun => begun
    rwa [List.append_nil] at whole
  | false =>
    apply Reads.currentKind
    intro found begun
    have begins : BeginsStatement found := beginsStatement_of_body placed.2 begun
    have other : found ≠ .openCurly := by
      rintro rfl
      exact absurd begins (by decide)
    rw [if_neg other]
    exact reads.body body kind placed room

/-- The content of a link is read, with the links behind it. -/
theorem branchContent_reads {inner : Nested} (reads : ReadsNested depth steps inner)
    {link : Concrete.Link} {kind : Token.Kind} (placed : link.Placed kind)
    (room : link.content.length ≤ steps) :
    Reads depth (branchContent inner) link.content (· = kind) (· = link.tree) link.rules := by
  have settlesParen : ∀ {marks : List Mark} {next : Token.Kind → Prop} (found : Token.Kind),
      Begins (.fixed .closeParen :: marks) next found → Settles .lowest found := by
    rintro marks next found rfl
    decide
  cases link with
  | last condition braced body =>
    obtain ⟨fits, follow, present, other⟩ := placed
    have lengths : condition.marks.length + body.content.length ≤ steps := by
      have bound := Concrete.length_le_enclosed braced (raised body.content)
      simp only [Concrete.Link.content, List.length_cons, List.length_append,
        length_raised] at room bound
      omega
    refine Reads.expect rfl rfl fun _ _ => ?_
    refine Reads.expect rfl rfl fun _ _ => ?_
    refine (condition_reads reads.expr fits (by omega)).bind ?_ settlesParen
    rintro value rfl
    refine Reads.expect rfl rfl fun _ _ => ?_
    refine (branchBody_reads reads ⟨follow, present⟩ (by omega)).bindLast ?_ fun _ same => same
    rintro value rfl
    apply Reads.currentKind
    intro found begun
    have isOther : found ≠ .elseWord := by
      rintro rfl
      exact other begun.symm
    rw [if_neg isOther]
    exact Reads.reduce (Reads.pure rfl)
  | orElse condition braced body rest =>
    obtain ⟨fits, follow, present, further⟩ := placed
    have lengths : condition.marks.length + body.content.length + rest.content.length ≤ steps := by
      have bound := Concrete.length_le_enclosed braced (raised body.content)
      simp only [Concrete.Link.content, List.length_cons, List.length_append,
        length_raised] at room bound
      omega
    refine Reads.expect rfl rfl fun _ _ => ?_
    refine Reads.expect rfl rfl fun _ _ => ?_
    refine (condition_reads reads.expr fits (by omega)).bind ?_ settlesParen
    rintro value rfl
    refine Reads.expect rfl rfl fun _ _ => ?_
    refine (branchBody_reads reads ⟨follow, present⟩ (by omega)).bind ?_ fun _ begun => begun
    rintro value rfl
    apply Reads.currentKind
    intro found begun
    have isElse : found = .elseWord := begun
    rw [if_pos isElse]
    apply Reads.advance rfl
    intro _ _
    refine (reads.branch rest kind further (by omega)).bindLast ?_ fun _ same => same
    rintro value rfl
    exact Reads.reduce (Reads.pure rfl)

/-- The advance of a loop is read before a closing parenthesis. -/
theorem step_reads {inner : Nested} (reads : ReadsNested depth steps inner)
    {step : Concrete.Step} (fits : step.Fits) (room : step.marks.length ≤ steps) :
    Reads depth (Parse.step inner) step.marks (Settles .lowest) (· = step.tree) step.rules := by
  apply Reads.currentKind
  intro found begun
  cases step with
  | increment name =>
    have isIncrement : found = .plusPlus := begun
    simp only [isIncrement]
    apply Reads.advance rfl
    intro _ _
    exact Reads.identifier (Reads.reduce (Reads.pure rfl))
  | decrement name =>
    have isDecrement : found = .minusMinus := begun
    simp only [isDecrement]
    apply Reads.advance rfl
    intro _ _
    exact Reads.identifier (Reads.reduce (Reads.pure rfl))
  | assign assignment =>
    have isName : found = .identifier := begun
    simp only [isName]
    refine (assign_reads reads.expr fits room).bindLast ?_ fun _ settles => settles
    rintro value rfl
    exact Reads.reduce (Reads.pure rfl)

/-- A loop is read. -/
theorem repetition_reads {inner : Nested} (reads : ReadsNested depth steps inner)
    {dataType : DataType} {init : Concrete.Assign} {condition : Concrete.Condition}
    {step : Concrete.Step} {body : Concrete.Body} {kind : Token.Kind}
    (placed : (Concrete.Stmt.repetition dataType init condition step body).Placed kind)
    (room : (Concrete.Stmt.repetition dataType init condition step body).marks.length ≤ steps) :
    Reads depth (repetition inner)
      (Concrete.Stmt.repetition dataType init condition step body).marks (· = kind)
      (· = .repetition dataType init.tree condition.tree step.tree body.tree)
      (Concrete.Stmt.repetition dataType init condition step body).rules := by
  obtain ⟨initFits, conditionFits, stepFits, follow, present⟩ := placed
  have lengths : init.marks.length + condition.marks.length + step.marks.length +
      body.content.length ≤ steps := by
    simp only [Concrete.Stmt.marks, List.length_cons, List.length_append, length_raised] at room
    omega
  refine Reads.expect rfl rfl fun _ _ => ?_
  refine Reads.expect rfl rfl fun _ _ => ?_
  apply Reads.dataType
  refine (assign_reads reads.expr initFits (by omega)).bind ?_ (by rintro _ rfl; decide)
  rintro value rfl
  refine Reads.expect rfl rfl fun _ _ => ?_
  refine (condition_reads reads.expr conditionFits (by omega)).bind ?_ (by rintro _ rfl; decide)
  rintro value rfl
  refine Reads.expect rfl rfl fun _ _ => ?_
  refine (step_reads reads stepFits (by omega)).bind ?_ (by rintro _ rfl; decide)
  rintro value rfl
  refine Reads.expect rfl rfl fun _ _ => ?_
  refine Reads.expect rfl rfl fun _ _ => ?_
  refine (reads.body body .closeCurly ⟨follow, present⟩ (by omega)).bind ?_ fun _ begun => begun
  rintro value rfl
  exact Reads.expectBodyEnd rfl rfl fun _ _ => Reads.reduce (Reads.pure rfl)

/-- A function is read. -/
theorem function_reads {inner : Nested} (reads : ReadsNested depth steps inner)
    {returnType : DataType} {name : Identifier} {parameters : List Parameter}
    {body : Concrete.Body} {result : Identifier} {kind : Token.Kind}
    (placed : (Concrete.Stmt.function returnType name parameters body result).Placed kind)
    (room : (Concrete.Stmt.function returnType name parameters body result).marks.length ≤
      steps) :
    Reads depth (function inner)
      (Concrete.Stmt.function returnType name parameters body result).marks (· = kind)
      (· = .function returnType name parameters body.tree result)
      (Concrete.Stmt.function returnType name parameters body result).rules := by
  obtain ⟨named, follow, present⟩ := placed
  have lengths : parameters.length + body.content.length ≤ steps := by
    have bound := Concrete.length_le_parameterMarks parameters
    simp only [Concrete.Stmt.marks, List.length_cons, List.length_append, length_raised] at room
    omega
  unfold function
  rw [reads.bound]
  refine Reads.expect rfl rfl fun _ _ => ?_
  refine Reads.dataType (Reads.reduce ?_)
  apply Reads.functionName
  refine Reads.expect rfl rfl fun _ _ => ?_
  refine (parameters_reads named (by omega)).bind ?_ (by rintro _ rfl; decide)
  rintro value rfl
  refine Reads.expect rfl rfl fun _ _ => ?_
  refine Reads.expect rfl rfl fun _ _ => ?_
  refine (reads.body body .retWord ⟨follow, present⟩ (by omega)).bind ?_ fun _ begun => begun
  rintro value rfl
  refine Reads.expectBodyEnd rfl rfl fun _ _ => ?_
  apply Reads.identifier
  exact Reads.expect rfl rfl fun _ _ => Reads.reduce (Reads.pure rfl)

/-- The way in which a statement is parsed. -/
def handlerOfStmt : Concrete.Stmt → StatementHandler
  | .assign _ | .call _ _ => .identifier
  | .declaration _ _ => .declaration
  | .branch _ => .branch
  | .repetition _ _ _ _ _ => .repetition
  | .function _ _ _ _ _ => .function

/-- The tables hold every statement under its first kind. -/
theorem standard_statement_firstKind (statement : Concrete.Stmt) :
    Tables.standard.statement statement.firstKind = some (handlerOfStmt statement) := by
  cases statement with
  | declaration dataType assignment => cases dataType <;> rfl
  | _ => rfl

/-- A statement is read by its handler. -/
theorem statementBy_reads {inner : Nested} (reads : ReadsNested depth steps inner)
    {statement : Concrete.Stmt} {kind : Token.Kind} (placed : statement.Placed kind)
    (room : statement.marks.length ≤ steps) :
    Reads depth (statementBy inner (handlerOfStmt statement)) statement.marks (· = kind)
      (· = statement.tree) statement.rules := by
  cases statement with
  | assign assignment => exact identifierStmt_reads_assign reads placed room
  | declaration dataType assignment => exact declaration_reads reads placed room
  | branch link =>
    have shorter : link.content.length ≤ steps := by
      simpa [Concrete.Stmt.marks] using room
    exact (reads.branch link kind placed shorter).map StartEnd.Stmt.branch fun _ same => same
  | repetition dataType init condition step body => exact repetition_reads reads placed room
  | function returnType name parameters body result => exact function_reads reads placed room
  | call name arguments => exact identifierStmt_reads_call reads placed room

/-- A statement is read. -/
theorem statement_reads {inner : Nested} (reads : ReadsNested depth steps inner)
    {statement : Concrete.Stmt} {kind : Token.Kind} (placed : statement.Placed kind)
    (room : statement.marks.length ≤ steps) :
    Reads depth (Parse.statement inner) statement.marks (· = kind) (· = statement.tree)
      (statement.rules ++ [statementRule statement.tree]) := by
  apply Reads.currentKind
  intro found begun
  have first : found = statement.firstKind := by
    obtain ⟨mark, rest, same, firstKind⟩ := statement.marks_eq_cons
    rw [same] at begun
    exact begun.trans firstKind
  apply Reads.tables
  intro state standard
  simp only [standard, first, standard_statement_firstKind]
  refine (statementBy_reads reads placed room).bindLast ?_ fun _ same => same
  rintro value rfl
  exact Reads.reduce (Reads.pure rfl)

/-- Statements are read as long as one begins. The induction is over the rounds of the
loop, each of which reads one statement. -/
theorem moreStatements_reads {inner : Nested} (reads : ReadsNested depth steps inner)
    {body : Concrete.Body} {kind : Token.Kind} {count : Nat} (follow : body.Follow kind)
    (room : body.content.length ≤ steps) (rounds : body.length ≤ count) :
    Reads depth (moreStatements inner count) body.content (· = kind) (· = body.tree.toList)
      body.statementRules := by
  induction count generalizing body with
  | zero =>
    cases body with
    | nil => exact Reads.pure rfl
    | cons first rest => exact absurd rounds (by simp [Concrete.Body.length])
  | succ count inductionHypothesis =>
    unfold moreStatements startsStatement
    rw [bind_assoc]
    apply Reads.currentKind
    intro found begun
    rw [bind_assoc]
    apply Reads.tables
    intro state standard
    rw [pure_bind, standard]
    have starts : found = body.firstKind kind := begins_content begun
    cases body with
    | nil =>
      have stops : (Tables.standard.statement found).isSome = false := by
        rw [starts]
        exact Bool.eq_false_iff.mpr follow
      rw [stops]
      exact Reads.pure rfl
    | cons first rest =>
      obtain ⟨placed, further⟩ := follow
      have lengths : first.marks.length + rest.content.length ≤ steps := by
        simpa [Concrete.Body.content] using room
      have goes : (Tables.standard.statement found).isSome = true := by
        rw [starts]
        exact first.beginsStatement_firstKind
      rw [goes]
      have others : Reads depth (moreStatements inner count) rest.content (· = kind)
          (· = rest.tree.toList) rest.statementRules :=
        inductionHypothesis further (by omega) (Nat.le_of_succ_le_succ rounds)
      have grouped : (Concrete.Body.cons first rest).statementRules =
          (first.rules ++ [statementRule first.tree]) ++ rest.statementRules := by
        simp [Concrete.Body.statementRules]
      rw [grouped]
      refine (statement_reads reads placed (by omega)).bind ?_ fun _ => begins_content
      rintro value rfl
      exact others.map (first.tree :: ·) fun _ same => same

/-- The content of a body is read. -/
theorem bodyContent_reads {inner : Nested} (reads : ReadsNested depth steps inner)
    {body : Concrete.Body} {kind : Token.Kind} (placed : body.Placed kind)
    (room : body.content.length ≤ steps) :
    Reads depth (bodyContent inner) body.content (· = kind) (· = body.tree) body.rules := by
  obtain ⟨follow, present⟩ := placed
  cases body with
  | nil => exact absurd rfl present
  | cons first rest =>
    obtain ⟨placed, further⟩ := follow
    have lengths : first.marks.length + rest.content.length ≤ steps := by
      simpa [Concrete.Body.content] using room
    have rounds : rest.length ≤ inner.steps := by
      have bound : rest.length ≤ rest.content.length := rest.length_le
      rw [reads.bound]
      omega
    have grouped : (Concrete.Body.cons first rest).rules =
        (first.rules ++ [statementRule first.tree]) ++
          (rest.statementRules ++ bodyRules (rest.length + 1)) := by
      simp [Concrete.Body.rules, Concrete.Body.statementRules, Concrete.Body.length]
    rw [grouped]
    refine (statement_reads reads placed (by omega)).bind ?_ fun _ => begins_content
    rintro value rfl
    refine (moreStatements_reads reads further (by omega) rounds).bindLast ?_ fun _ same => same
    rintro value rfl
    apply Reads.reduce
    have closed : Reads depth (do
          reduceTimes .bodyCons rest.tree.toList.length
          pure (Block.ofList (first.tree :: rest.tree.toList)))
        [] (· = kind) (· = (Concrete.Body.cons first rest).tree)
        (List.replicate rest.tree.toList.length .bodyCons ++ []) := by
      refine Reads.reduceTimes _ (Reads.pure ?_)
      simp [Block.ofList, Concrete.Body.tree]
    rw [List.append_nil, rest.length_tree] at closed
    rw [rest.length_tree]
    exact closed

/-- Parsers with room for as many constructs as may still be opened read all constructs.
The induction is over the room. -/
theorem within_reads (steps room depth : Nat) (exact : room = depthLimit - depth) :
    ReadsNested depth steps (Nested.within steps room) := by
  induction room generalizing depth with
  | zero =>
    have full : depthLimit ≤ depth := by omega
    exact ⟨rfl, fun _ expr _ _ _ => Reads.tooDeep full expr.content_ne_nil,
      fun _ _ placed _ => Reads.tooDeep full (Concrete.Body.content_ne_nil placed.2),
      fun link _ _ _ => Reads.tooDeep full link.content_ne_nil⟩
  | succ room inductionHypothesis =>
    have inner : ReadsNested (depth + 1) steps (Nested.within steps room) :=
      inductionHypothesis (depth + 1) (by omega)
    refine ⟨rfl, exprBy_reads inner.expr, ?_, ?_⟩
    · intro body kind placed room
      exact (bodyContent_reads inner placed room).construct
        (Concrete.Body.content_ne_nil placed.2)
    · intro link kind placed room
      exact (branchContent_reads inner placed room).construct link.content_ne_nil

end StartEnd.Parse
