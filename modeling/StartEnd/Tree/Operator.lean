import StartEnd.Token.Kind

/-!
# Data types and operators

The language has three data types, five arithmetic operators and four comparisons.
Each is written as one fixed token. Powers bind tightest and group to the right;
products and sums follow and group to the left.
-/

namespace StartEnd

/-- The types of declared names. -/
inductive DataType where
  | int
  | string
  | float
deriving DecidableEq, Inhabited

namespace DataType

/-- The type that a token names. -/
def ofKind? : Token.Kind → Option DataType
  | .intWord => some int
  | .stringWord => some string
  | .floatWord => some float
  | _ => none

/-- The kind of token that names a type. -/
def kind : DataType → Token.Kind
  | int => .intWord
  | string => .stringWord
  | float => .floatWord

/-- The word for a type in programs. -/
def keyword : DataType → String
  | int => "int"
  | string => "string"
  | float => "float"

/-- The name of a type in listings and in stored documents. -/
def name : DataType → String
  | int => "Int"
  | string => "String"
  | float => "Float"

/-- The type with a given name. -/
def ofName? (text : String) : Option DataType := [int, string, float].find? (·.name = text)

/-- Tokens and types correspond. -/
theorem ofKind?_eq_some_iff (kind : Token.Kind) (dataType : DataType) :
    ofKind? kind = some dataType ↔ kind = dataType.kind := by
  cases dataType <;> cases kind <;> decide

/-- The word for a type is the text of its token. -/
theorem lexeme?_kind (dataType : DataType) : dataType.kind.lexeme? = some dataType.keyword := by
  cases dataType <;> rfl

/-- A type is found under its own name. -/
@[simp] theorem ofName?_name (dataType : DataType) : ofName? dataType.name = some dataType := by
  cases dataType <;> decide

end DataType

/-- The arithmetic operators. -/
inductive Operator where
  | add
  | sub
  | mul
  | div
  | pow
deriving DecidableEq, Inhabited

namespace Operator

/-- The operator that a token stands for. -/
def ofKind? : Token.Kind → Option Operator
  | .plus => some add
  | .dash => some sub
  | .star => some mul
  | .slash => some div
  | .starStar => some pow
  | _ => none

/-- The kind of token that stands for an operator. -/
def kind : Operator → Token.Kind
  | add => .plus
  | sub => .dash
  | mul => .star
  | div => .slash
  | pow => .starStar

/-- The operator in programs. -/
def symbol : Operator → String
  | add => "+"
  | sub => "-"
  | mul => "*"
  | div => "/"
  | pow => "**"

/-- How tightly an operator binds; higher is tighter. -/
def precedence : Operator → Nat
  | add | sub => 1
  | mul | div => 2
  | pow => 3

/-- Whether a chain of the operator groups to the right. -/
def groupsRight : Operator → Bool
  | pow => true
  | add | sub | mul | div => false

/-- The name of an operator in listings and in stored documents. -/
def name : Operator → String
  | add => "Add"
  | sub => "Sub"
  | mul => "Mul"
  | div => "Div"
  | pow => "Pow"

/-- The operator with a given name. -/
def ofName? (text : String) : Option Operator :=
  [add, sub, mul, div, pow].find? (·.name = text)

/-- Tokens and operators correspond. -/
theorem ofKind?_eq_some_iff (kind : Token.Kind) (operator : Operator) :
    ofKind? kind = some operator ↔ kind = operator.kind := by
  cases operator <;> cases kind <;> decide

/-- An operator is written as the text of its token. -/
theorem lexeme?_kind (operator : Operator) : operator.kind.lexeme? = some operator.symbol := by
  cases operator <;> rfl

/-- An operator is found under its own name. -/
@[simp] theorem ofName?_name (operator : Operator) : ofName? operator.name = some operator := by
  cases operator <;> decide

end Operator

/-- The comparisons. -/
inductive Comparison where
  | lt
  | gt
  | eq
  | neq
deriving DecidableEq, Inhabited

namespace Comparison

/-- The comparison that a token stands for. -/
def ofKind? : Token.Kind → Option Comparison
  | .less => some lt
  | .greater => some gt
  | .equals => some eq
  | .notEquals => some neq
  | _ => none

/-- The kind of token that stands for a comparison. -/
def kind : Comparison → Token.Kind
  | lt => .less
  | gt => .greater
  | eq => .equals
  | neq => .notEquals

/-- The comparison in programs. -/
def symbol : Comparison → String
  | lt => "<"
  | gt => ">"
  | eq => "=="
  | neq => "!="

/-- The name of a comparison in listings and in stored documents. -/
def name : Comparison → String
  | lt => "Lt"
  | gt => "Gt"
  | eq => "Eq"
  | neq => "Neq"

/-- The comparison with a given name. -/
def ofName? (text : String) : Option Comparison := [lt, gt, eq, neq].find? (·.name = text)

/-- Tokens and comparisons correspond. -/
theorem ofKind?_eq_some_iff (kind : Token.Kind) (comparison : Comparison) :
    ofKind? kind = some comparison ↔ kind = comparison.kind := by
  cases comparison <;> cases kind <;> decide

/-- A comparison is written as the text of its token. -/
theorem lexeme?_kind (comparison : Comparison) :
    comparison.kind.lexeme? = some comparison.symbol := by
  cases comparison <;> rfl

/-- A comparison is found under its own name. -/
@[simp] theorem ofName?_name (comparison : Comparison) :
    ofName? comparison.name = some comparison := by
  cases comparison <;> decide

end Comparison

end StartEnd
