import StartEnd.Parse.Expression

/-!
# Parsing statements

A statement is recognized by its first token, an assignment and a call by the one
behind the name. The constructs inside a statement are parsed by parsers that are
passed in, as for expressions.
-/

namespace StartEnd.Parse

/-- Parsers for the constructs that nest. -/
structure Nested where
  /-- A bound on the rounds of every loop. -/
  steps : Nat
  expr : ExprParser
  body : Parse Block
  branch : Parse Branch

/-- A name. -/
def identifier : Parse Identifier := do
  let token ← expect .identifier
  reduce .id
  return ⟨token.value⟩

/-- The name of a function. -/
def functionName : Parse Identifier := do
  let name ← identifier
  reduce .name
  return name

/-- The production of a data type. -/
def dataTypeRule : DataType → Rule
  | .int => .dataInt
  | .string => .dataString
  | .float => .dataFloat

/-- The word for a data type. -/
def dataTypeKeyword : Parse DataType := do
  let token ← advance
  match DataType.ofKind? token.kind with
  | none => throw (Fault.unexpected token Nonterminal.data.first)
  | some dataType =>
    reduce (dataTypeRule dataType)
    return dataType

/-- A data type, if the tables know the current token as one. -/
def dataType : Parse DataType := do
  let kind ← currentKind
  if (← get).tables.dataType kind then dataTypeKeyword
  else unexpected Nonterminal.data.first

/-- An assignment. -/
def assign (expr : ExprParser) : Parse Assign := do
  let target ← identifier
  let _ ← expect .assignment
  let value ← expr .lowest
  reduce .assign
  return { target := target, value := value }

/-- A typed name. -/
def parameter : Parse Parameter := do
  let dataType ← dataType
  let name ← identifier
  return { dataType := dataType, name := name }

/-- Typed names between commas, at most one more than the given number of them. -/
def parametersWithin : Nat → Parse (List Parameter)
  | 0 => do return [← parameter]
  | count + 1 => do
    let first ← parameter
    if (← currentKind) = .comma then
      let _ ← advance
      return first :: (← parametersWithin count)
    else return [first]

/-- Typed names between commas. Their list is recognized from its end. -/
def parameters (steps : Nat) : Parse (List Parameter) := do
  let parameters ← parametersWithin steps
  reduce .parameterLast
  reduceTimes .parameterCons (parameters.length - 1)
  return parameters

/-- A call. -/
def call (inner : Nested) : Parse Stmt := do
  let name ← functionName
  let _ ← expect .openParen
  let arguments ← parameters inner.steps
  let _ ← expect .closeParen
  reduce .functionCall
  return .call name arguments

/-- An assignment or a call, told apart by the token behind the name. -/
def identifierStmt (inner : Nested) : Parse Stmt := do
  let following ← peek 1
  match following.kind with
  | .assignment => return .assign (← assign inner.expr)
  | .openParen => call inner
  | _ => throw (Fault.unexpected following [.openParen, .assignment])

/-- A declaration. -/
def declaration (inner : Nested) : Parse Stmt := do
  let dataType ← dataType
  let assign ← assign inner.expr
  reduce .declaration
  return .declaration dataType assign

/-- The body of an `if`, with or without braces. -/
def branchBody (inner : Nested) : Parse Block := do
  if (← currentKind) = .openCurly then
    let _ ← advance
    let body ← inner.body
    let _ ← expectBodyEnd .closeCurly
    return body
  else inner.body

/-- The content of an `if` link that has just been opened. -/
def branchContent (inner : Nested) : Parse Branch := do
  let _ ← expect .ifWord
  let _ ← expect .openParen
  let condition ← condition inner.expr
  let _ ← expect .closeParen
  let body ← branchBody inner
  if (← currentKind) = .elseWord then
    let _ ← advance
    let next ← inner.branch
    reduce .branchElse
    return .orElse condition body next
  else
    reduce .branchThen
    return .last condition body

/-- An `if` link as a construct of its own. -/
def branchBy (inner : Nested) : Parse Branch := do
  enter
  let link ← branchContent inner
  leave
  return link

/-- How a loop moves on. -/
def step (inner : Nested) : Parse Step := do
  match ← currentKind with
  | .plusPlus =>
    let _ ← advance
    let name ← identifier
    reduce .stepIncrement
    return .increment name
  | .minusMinus =>
    let _ ← advance
    let name ← identifier
    reduce .stepDecrement
    return .decrement name
  | .identifier =>
    let assign ← assign inner.expr
    reduce .stepAssign
    return .assign assign
  | _ => unexpected Nonterminal.step.first

/-- A loop. -/
def repetition (inner : Nested) : Parse Stmt := do
  let _ ← expect .repWord
  let _ ← expect .openParen
  let dataType ← dataType
  let init ← assign inner.expr
  let _ ← expect .semicolon
  let condition ← condition inner.expr
  let _ ← expect .semicolon
  let step ← step inner
  let _ ← expect .closeParen
  let _ ← expect .openCurly
  let body ← inner.body
  let _ ← expectBodyEnd .closeCurly
  reduce .repetition
  return .repetition dataType init condition step body

/-- A function. -/
def function (inner : Nested) : Parse Stmt := do
  let _ ← expect .funcWord
  let returnType ← dataType
  reduce .dataType
  let name ← functionName
  let _ ← expect .openParen
  let parameters ← parameters inner.steps
  let _ ← expect .closeParen
  let _ ← expect .openCurly
  let body ← inner.body
  let _ ← expectBodyEnd .retWord
  let result ← identifier
  let _ ← expect .closeCurly
  reduce .functionDecl
  return .function returnType name parameters body result

/-- The statement that a handler parses. -/
def statementBy (inner : Nested) : StatementHandler → Parse Stmt
  | .identifier => identifierStmt inner
  | .declaration => declaration inner
  | .branch => do return .branch (← inner.branch)
  | .repetition => repetition inner
  | .function => function inner

/-- The production of a statement. -/
def statementRule : Stmt → Rule
  | .assign _ => .conceptAssign
  | .declaration _ _ => .conceptDeclaration
  | .branch _ => .conceptBranch
  | .repetition _ _ _ _ _ => .conceptRepetition
  | .function _ _ _ _ _ => .conceptFunctionDecl
  | .call _ _ => .conceptFunctionCall

/-- A statement, if the tables know the current token as the start of one. -/
def statement (inner : Nested) : Parse Stmt := do
  let kind ← currentKind
  match (← get).tables.statement kind with
  | none => unexpected Nonterminal.concept.first
  | some handler =>
    let statement ← statementBy inner handler
    reduce (statementRule statement)
    return statement

/-- Statements as long as one begins, at most the given number of them. -/
def moreStatements (inner : Nested) : Nat → Parse (List Stmt)
  | 0 => return []
  | count + 1 => do
    if ← startsStatement then
      let first ← statement inner
      return first :: (← moreStatements inner count)
    else return []

/-- The content of a body that has just been opened: one statement or more. -/
def bodyContent (inner : Nested) : Parse Block := do
  let first ← statement inner
  let rest ← moreStatements inner inner.steps
  reduce .bodySingle
  reduceTimes .bodyCons rest.length
  return .ofList (first :: rest)

/-- A body as a construct of its own. -/
def bodyBy (inner : Nested) : Parse Block := do
  enter
  let body ← bodyContent inner
  leave
  return body

/-- Parsers with room for the given number of open constructs. Each construct is
parsed with room for one less inside it, and without room it is too deep. -/
def Nested.within (steps : Nat) : Nat → Nested
  | 0 => { steps := steps, expr := fun _ => tooDeep, body := tooDeep, branch := tooDeep }
  | room + 1 =>
    let inner := Nested.within steps room
    { steps := steps
      expr := exprBy steps inner.expr
      body := bodyBy inner
      branch := branchBy inner }

/-- Parsers with room for as many constructs as may still be opened. Every round of a
loop but the last consumes an item, so their number is bounded by the pending ones. -/
def nested : Parse Nested := do
  return Nested.within ((← pending) + 1) (depthLimit - (← get).depth)

end StartEnd.Parse
