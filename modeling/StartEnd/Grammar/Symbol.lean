import StartEnd.Token.Kind

/-!
# Symbols of the grammar

A production is a nonterminal and the symbols it stands for. Terminals are kinds
of tokens. Each symbol has a written form in which productions are listed.
-/

namespace StartEnd

/-- The phrases that the grammar has names for. -/
inductive Nonterminal where
  | program
  | body
  | concept
  | assign
  | id
  | expr
  | term
  | factor
  | exp
  | digit
  | branch
  | condition
  | op
  | repetition
  | data
  | step
  | declaration
  | functionDecl
  | name
  | dataType
  | parameter
  | functionCall
deriving DecidableEq, Inhabited

/-- Every nonterminal once. -/
def Nonterminal.all : List Nonterminal :=
  [.program, .body, .concept, .assign, .id, .expr, .term, .factor, .exp, .digit, .branch,
    .condition, .op, .repetition, .data, .step, .declaration, .functionDecl, .name, .dataType,
    .parameter, .functionCall]

/-- The label under which a nonterminal is looked up. -/
def Nonterminal.label : Nonterminal → String
  | .program => "Program"
  | .body => "Body"
  | .concept => "Concept"
  | .assign => "Assign"
  | .id => "Id"
  | .expr => "Expr"
  | .term => "Term"
  | .factor => "Factor"
  | .exp => "Exp"
  | .digit => "Digit"
  | .branch => "If"
  | .condition => "Condition"
  | .op => "Op"
  | .repetition => "Repeat"
  | .data => "Data"
  | .step => "Step"
  | .declaration => "Declaration"
  | .functionDecl => "FunctionDecl"
  | .name => "Name"
  | .dataType => "DataType"
  | .parameter => "Parameter"
  | .functionCall => "FunctionCall"

/-- The nonterminal with a given label. -/
def Nonterminal.ofLabel? (text : String) : Option Nonterminal :=
  Nonterminal.all.find? (·.label = text)

/-- The nonterminal as productions write it, between angle brackets. -/
def Nonterminal.written : Nonterminal → String
  | .program => "<program>"
  | .body => "<body>"
  | .concept => "<concept>"
  | .assign => "<assign>"
  | .id => "<id>"
  | .expr => "<expr>"
  | .term => "<term>"
  | .factor => "<factor>"
  | .exp => "<exp>"
  | .digit => "<digit>"
  | .branch => "<if>"
  | .condition => "<condition>"
  | .op => "<op>"
  | .repetition => "<repeat>"
  | .data => "<data>"
  | .step => "<step>"
  | .declaration => "<declaration>"
  | .functionDecl => "<function_decl>"
  | .name => "<name>"
  | .dataType => "<data_type>"
  | .parameter => "<parameter>"
  | .functionCall => "<function_call>"

/-- Every nonterminal is listed. -/
@[simp] theorem Nonterminal.mem_all (nonterminal : Nonterminal) :
    nonterminal ∈ Nonterminal.all := by
  cases nonterminal <;> decide

/-- A constituent of a production's body. -/
inductive Symbol where
  | terminal (kind : Token.Kind)
  | nonterminal (phrase : Nonterminal)
deriving DecidableEq

/-- A kind as productions write it: reserved words bare, other fixed texts between
quotes, and the open classes by a name. -/
def Token.Kind.written (kind : Token.Kind) : String :=
  match kind with
  | .endOfInput => "(EOF)"
  | .identifier => "Id"
  | .number => "Digit"
  | _ =>
    let text := kind.lexeme?.getD ""
    if kind.isReserved then text else "'" ++ text ++ "'"

/-- A symbol as productions write it. -/
def Symbol.written : Symbol → String
  | .terminal kind => kind.written
  | .nonterminal phrase => phrase.written

/-- A nonterminal and one sequence of symbols it stands for. -/
structure Production where
  head : Nonterminal
  body : List Symbol
deriving DecidableEq

/-- The production on one line. -/
def Production.written (production : Production) : String :=
  production.head.written ++ " ::=" ++
    String.join (production.body.map fun symbol => " " ++ symbol.written)

end StartEnd
