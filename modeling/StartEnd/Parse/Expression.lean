import StartEnd.Parse.State
import StartEnd.Tree

/-!
# Parsing expressions

An expression is a leaf followed by operators that bind more tightly than the place
it stands in. Its right operands are expressions again, one construct deeper. The
parser of those is passed in as an argument, so that everything here is defined
without recursion into deeper constructs.

The grammar has three layers, factors, terms and sums, and reaches the upper ones
by productions with a single symbol. These are logged just before an operator of
the upper layer, and at the end for the place the expression stands in.
-/

namespace StartEnd.Parse

/-- A parser of expressions for each binding power of their place. -/
abbrev ExprParser := BindingPower → Parse Expr

/-- The layers of the expression grammar. -/
inductive Layer where
  | factor
  | term
  | expr
deriving DecidableEq

/-- The layer of an operator's left operand and of its result. -/
def Layer.ofOperator : BindingPower → Layer
  | .lowest | .additive => .expr
  | .multiplicative => .term
  | .exponential => .factor

/-- The layer that a place needs. -/
def Layer.ofPlace : BindingPower → Layer
  | .lowest => .expr
  | .additive => .term
  | .multiplicative | .exponential => .factor

/-- Logs the steps from one layer up to another. -/
def promote : Layer → Layer → Parse Unit
  | .factor, .term => reduce .termFactor
  | .factor, .expr => do
    reduce .termFactor
    reduce .exprTerm
  | .term, .expr => reduce .exprTerm
  | .factor, .factor | .term, .factor | .term, .term | .expr, _ => pure ()

/-- A number or a name. -/
def primary : Parse Expr := do
  let token ← advance
  match token.kind with
  | .number =>
    reduce .digit
    reduce .expDigit
    return .number token.value
  | .identifier =>
    reduce .id
    reduce .expId
    return .symbol ⟨token.value⟩
  | _ => throw (Fault.unexpected token [.number, .identifier])

/-- An expression between parentheses. -/
def grouping (inner : ExprParser) : Parse Expr := do
  let _ ← expect .openParen
  let expr ← inner .lowest
  let _ ← expect .closeParen
  reduce .expParen
  return expr

/-- The production that an operator completes. -/
def operatorRule : Operator → Rule
  | .add => .exprAdd
  | .sub => .exprSub
  | .mul => .termMul
  | .div => .termDiv
  | .pow => .factorPow

/-- An operator and its right operand, which binds more tightly than the operator. -/
def binary (inner : ExprParser) (left : Expr) (power : BindingPower) : Parse Expr := do
  let token ← advance
  match Operator.ofKind? token.kind with
  | none => throw (Fault.unexpected token [.dash, .star, .slash, .plus])
  | some operator =>
    let right ← inner power
    reduce (operatorRule operator)
    return .binary left operator right

/-- A power and its exponent, which may be a power itself. -/
def exponent (inner : ExprParser) (left : Expr) : Parse Expr := do
  let _ ← expect .starStar
  let right ← inner .multiplicative
  reduce .factorPow
  return .binary left .pow right

/-- The leaf that a handler parses. -/
def leafBy (inner : ExprParser) : LeafHandler → Parse Expr
  | .primary => primary
  | .grouping => grouping inner

/-- The operation that a handler parses behind its left operand. -/
def operationBy (inner : ExprParser) (left : Expr) (power : BindingPower) :
    OperatorHandler → Parse Expr
  | .binary => binary inner left power
  | .exponent => exponent inner left

/-- Extends an expression by the operators that bind more tightly than its place, at
most the given number of them. -/
def operators (inner : ExprParser) (place : BindingPower) : Nat → Expr → Layer → Parse Expr
  | 0, left, layer => do
    promote layer (.ofPlace place)
    return left
  | count + 1, left, layer => do
    let kind ← currentKind
    let tables := (← get).tables
    match (tables.power kind).filter fun power => place.strength < power.strength with
    | none =>
      promote layer (.ofPlace place)
      return left
    | some power =>
      match tables.operator kind with
      | none => unexpected Nonterminal.exp.first
      | some handler =>
        promote layer (.ofOperator power)
        let extended ← operationBy inner left power handler
        operators inner place count extended (.ofOperator power)

/-- The content of an expression that has just been opened, with at most the given
number of operators. -/
def exprContent (steps : Nat) (inner : ExprParser) (place : BindingPower) : Parse Expr := do
  let kind ← currentKind
  match (← get).tables.leaf kind with
  | none => unexpected Nonterminal.exp.first
  | some handler =>
    let left ← leafBy inner handler
    reduce .factorExp
    operators inner place steps left .factor

/-- An expression as a construct of its own. -/
def exprBy (steps : Nat) (inner : ExprParser) (place : BindingPower) : Parse Expr := do
  enter
  let expr ← exprContent steps inner place
  leave
  return expr

/-- The production of a comparison sign. -/
def comparisonRule : Comparison → Rule
  | .lt => .opLt
  | .gt => .opGt
  | .eq => .opEq
  | .neq => .opNeq

/-- A comparison of two expressions. -/
def condition (expr : ExprParser) : Parse Condition := do
  let left ← expr .lowest
  match Comparison.ofKind? (← currentKind) with
  | none => unexpected Nonterminal.op.first
  | some operator =>
    let _ ← advance
    reduce (comparisonRule operator)
    let right ← expr .lowest
    reduce .condition
    return { left := left, operator := operator, right := right }

end StartEnd.Parse
