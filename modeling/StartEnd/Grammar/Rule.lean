import StartEnd.Grammar.Symbol

/-!
# The productions of the language

There are forty-four productions, numbered in the order of this list. No body is
empty, so no phrase is. An expression is layered into sums, products and powers,
a body is one concept or more, and `else` is always followed by another `if`.
-/

namespace StartEnd

/-- One name for each production. -/
inductive Rule where
  | program
  | bodySingle
  | bodyCons
  | conceptAssign
  | conceptDeclaration
  | conceptBranch
  | conceptRepetition
  | conceptFunctionDecl
  | conceptFunctionCall
  | assign
  | id
  | exprAdd
  | exprSub
  | exprTerm
  | termMul
  | termDiv
  | termFactor
  | factorPow
  | factorExp
  | expParen
  | expId
  | expDigit
  | digit
  | branchThen
  | branchElse
  | condition
  | opLt
  | opGt
  | opEq
  | opNeq
  | repetition
  | dataInt
  | dataString
  | dataFloat
  | stepDecrement
  | stepIncrement
  | stepAssign
  | declaration
  | functionDecl
  | name
  | dataType
  | parameterLast
  | parameterCons
  | functionCall
deriving DecidableEq, Inhabited

namespace Rule

/-- Every production once, in the order of the numbers. -/
def all : List Rule :=
  [program, bodySingle, bodyCons, conceptAssign, conceptDeclaration, conceptBranch,
    conceptRepetition, conceptFunctionDecl, conceptFunctionCall, assign, id, exprAdd, exprSub,
    exprTerm, termMul, termDiv, termFactor, factorPow, factorExp, expParen, expId, expDigit,
    digit, branchThen, branchElse, condition, opLt, opGt, opEq, opNeq, repetition, dataInt,
    dataString, dataFloat, stepDecrement, stepIncrement, stepAssign, declaration, functionDecl,
    name, dataType, parameterLast, parameterCons, functionCall]

/-- The number of a production. -/
def number (rule : Rule) : Nat := rule.ctorIdx

/-- The production with a given number. -/
def ofNumber? (number : Nat) : Option Rule := all[number]?

/-- The label under which a production is looked up. -/
def label : Rule → String
  | program => "Program"
  | bodySingle => "BodySingle"
  | bodyCons => "BodyCons"
  | conceptAssign => "ConceptAssign"
  | conceptDeclaration => "ConceptDeclaration"
  | conceptBranch => "ConceptIf"
  | conceptRepetition => "ConceptRepeat"
  | conceptFunctionDecl => "ConceptFunctionDecl"
  | conceptFunctionCall => "ConceptFunctionCall"
  | assign => "Assign"
  | id => "Id"
  | exprAdd => "ExprAdd"
  | exprSub => "ExprSub"
  | exprTerm => "ExprTerm"
  | termMul => "TermMul"
  | termDiv => "TermDiv"
  | termFactor => "TermFactor"
  | factorPow => "FactorPow"
  | factorExp => "FactorExp"
  | expParen => "ExpParen"
  | expId => "ExpId"
  | expDigit => "ExpDigit"
  | digit => "Digit"
  | branchThen => "IfThen"
  | branchElse => "IfElse"
  | condition => "Condition"
  | opLt => "OpLt"
  | opGt => "OpGt"
  | opEq => "OpEq"
  | opNeq => "OpNeq"
  | repetition => "Repeat"
  | dataInt => "DataInt"
  | dataString => "DataString"
  | dataFloat => "DataFloat"
  | stepDecrement => "StepDecrement"
  | stepIncrement => "StepIncrement"
  | stepAssign => "StepAssign"
  | declaration => "Declaration"
  | functionDecl => "FunctionDecl"
  | name => "Name"
  | dataType => "DataType"
  | parameterLast => "ParameterLast"
  | parameterCons => "ParameterCons"
  | functionCall => "FunctionCall"

/-- The production with a given label. -/
def ofLabel? (text : String) : Option Rule := all.find? (·.label = text)

/-- The head and the body of a production. -/
def production : Rule → Production
  | program => ⟨.program, [.terminal .startWord, .nonterminal .body, .terminal .endWord]⟩
  | bodySingle => ⟨.body, [.nonterminal .concept]⟩
  | bodyCons => ⟨.body, [.nonterminal .concept, .nonterminal .body]⟩
  | conceptAssign => ⟨.concept, [.nonterminal .assign]⟩
  | conceptDeclaration => ⟨.concept, [.nonterminal .declaration]⟩
  | conceptBranch => ⟨.concept, [.nonterminal .branch]⟩
  | conceptRepetition => ⟨.concept, [.nonterminal .repetition]⟩
  | conceptFunctionDecl => ⟨.concept, [.nonterminal .functionDecl]⟩
  | conceptFunctionCall => ⟨.concept, [.nonterminal .functionCall]⟩
  | assign => ⟨.assign, [.nonterminal .id, .terminal .assignment, .nonterminal .expr]⟩
  | id => ⟨.id, [.terminal .identifier]⟩
  | exprAdd => ⟨.expr, [.nonterminal .expr, .terminal .plus, .nonterminal .term]⟩
  | exprSub => ⟨.expr, [.nonterminal .expr, .terminal .dash, .nonterminal .term]⟩
  | exprTerm => ⟨.expr, [.nonterminal .term]⟩
  | termMul => ⟨.term, [.nonterminal .term, .terminal .star, .nonterminal .factor]⟩
  | termDiv => ⟨.term, [.nonterminal .term, .terminal .slash, .nonterminal .factor]⟩
  | termFactor => ⟨.term, [.nonterminal .factor]⟩
  | factorPow => ⟨.factor, [.nonterminal .factor, .terminal .starStar, .nonterminal .exp]⟩
  | factorExp => ⟨.factor, [.nonterminal .exp]⟩
  | expParen => ⟨.exp, [.terminal .openParen, .nonterminal .expr, .terminal .closeParen]⟩
  | expId => ⟨.exp, [.nonterminal .id]⟩
  | expDigit => ⟨.exp, [.nonterminal .digit]⟩
  | digit => ⟨.digit, [.terminal .number]⟩
  | branchThen =>
    ⟨.branch, [.terminal .ifWord, .terminal .openParen, .nonterminal .condition,
      .terminal .closeParen, .nonterminal .body]⟩
  | branchElse =>
    ⟨.branch, [.terminal .ifWord, .terminal .openParen, .nonterminal .condition,
      .terminal .closeParen, .nonterminal .body, .terminal .elseWord, .nonterminal .branch]⟩
  | condition => ⟨.condition, [.nonterminal .expr, .nonterminal .op, .nonterminal .expr]⟩
  | opLt => ⟨.op, [.terminal .less]⟩
  | opGt => ⟨.op, [.terminal .greater]⟩
  | opEq => ⟨.op, [.terminal .equals]⟩
  | opNeq => ⟨.op, [.terminal .notEquals]⟩
  | repetition =>
    ⟨.repetition, [.terminal .repWord, .terminal .openParen, .nonterminal .data,
      .nonterminal .assign, .terminal .semicolon, .nonterminal .condition, .terminal .semicolon,
      .nonterminal .step, .terminal .closeParen, .terminal .openCurly, .nonterminal .body,
      .terminal .closeCurly]⟩
  | dataInt => ⟨.data, [.terminal .intWord]⟩
  | dataString => ⟨.data, [.terminal .stringWord]⟩
  | dataFloat => ⟨.data, [.terminal .floatWord]⟩
  | stepDecrement => ⟨.step, [.terminal .minusMinus, .nonterminal .id]⟩
  | stepIncrement => ⟨.step, [.terminal .plusPlus, .nonterminal .id]⟩
  | stepAssign => ⟨.step, [.nonterminal .assign]⟩
  | declaration => ⟨.declaration, [.nonterminal .data, .nonterminal .assign]⟩
  | functionDecl =>
    ⟨.functionDecl, [.terminal .funcWord, .nonterminal .dataType, .nonterminal .name,
      .terminal .openParen, .nonterminal .parameter, .terminal .closeParen, .terminal .openCurly,
      .nonterminal .body, .terminal .retWord, .nonterminal .id, .terminal .closeCurly]⟩
  | name => ⟨.name, [.nonterminal .id]⟩
  | dataType => ⟨.dataType, [.nonterminal .data]⟩
  | parameterLast => ⟨.parameter, [.nonterminal .data, .nonterminal .id]⟩
  | parameterCons =>
    ⟨.parameter, [.nonterminal .data, .nonterminal .id, .terminal .comma,
      .nonterminal .parameter]⟩
  | functionCall =>
    ⟨.functionCall, [.nonterminal .name, .terminal .openParen, .nonterminal .parameter,
      .terminal .closeParen]⟩

/-- The production on one line. -/
def written (rule : Rule) : String := rule.production.written

/-- Every production is listed. -/
@[simp] theorem mem_all (rule : Rule) : rule ∈ all := by cases rule <;> decide

/-- A production is found under its own number. -/
@[simp] theorem ofNumber?_number (rule : Rule) : ofNumber? rule.number = some rule := by
  cases rule <;> rfl

/-- No production has an empty body. -/
theorem body_ne_nil (rule : Rule) : rule.production.body ≠ [] := by cases rule <;> decide

end Rule

/-- The productions for one nonterminal, in the order of their numbers. -/
def Nonterminal.rules (phrase : Nonterminal) : List Rule :=
  Rule.all.filter fun rule => rule.production.head = phrase

end StartEnd
