import StartEnd.Tree

/-!
# Canonical program text

Every tree has one canonical text: one statement to a line, two spaces for each
level of nesting, braces around every `if` body, and no parentheses beyond those
that keep the grouping of the tree.
-/

namespace StartEnd

/-- Whether an operand stands between parentheses below an operator: it binds less
tightly, or equally tightly on the side to which the operator does not group. -/
def Expr.needsParens (parent : Operator) (onRight : Bool) : Expr → Bool
  | .binary _ operator _ =>
    operator.precedence < parent.precedence ||
      (operator.precedence = parent.precedence && onRight != parent.groupsRight)
  | .symbol _ | .number _ => false

/-- A text between parentheses if they are needed. -/
def parenthesized (needed : Bool) (text : String) : String :=
  if needed then "(" ++ text ++ ")" else text

/-- The text of an expression. -/
def Expr.canonical : Expr → String
  | .binary left operator right =>
    parenthesized (left.needsParens operator false) left.canonical ++ " " ++ operator.symbol ++
      " " ++ parenthesized (right.needsParens operator true) right.canonical
  | .symbol name => name.value
  | .number digits => digits

/-- The text of a comparison. -/
def Condition.canonical (condition : Condition) : String :=
  condition.left.canonical ++ " " ++ condition.operator.symbol ++ " " ++
    condition.right.canonical

/-- The text of an assignment. -/
def Assign.canonical (assign : Assign) : String :=
  assign.target.value ++ " = " ++ assign.value.canonical

/-- The text of a loop's advance. -/
def Step.canonical : Step → String
  | .increment name => "++" ++ name.value
  | .decrement name => "--" ++ name.value
  | .assign assignment => assignment.canonical

/-- The text of a typed name. -/
def Parameter.canonical (parameter : Parameter) : String :=
  parameter.dataType.keyword ++ " " ++ parameter.name.value

/-- The text of a list of typed names, without its parentheses. -/
def parametersCanonical (parameters : List Parameter) : String :=
  ", ".intercalate (parameters.map Parameter.canonical)

/-- A line at a level of nesting. -/
def indentedLine (level : Nat) (text : String) : String :=
  String.join (List.replicate level "  ") ++ text ++ "\n"

mutual

/-- The lines of a statement at a level of nesting. -/
def Stmt.canonical (level : Nat) : Stmt → String
  | .assign assignment => indentedLine level assignment.canonical
  | .declaration dataType assignment =>
    indentedLine level (dataType.keyword ++ " " ++ assignment.canonical)
  | .branch link => link.canonical level ""
  | .repetition dataType init condition step body =>
    indentedLine level ("rep (" ++ dataType.keyword ++ " " ++ init.canonical ++ "; " ++
        condition.canonical ++ "; " ++ step.canonical ++ ") \x7b") ++
      body.canonical (level + 1) ++ indentedLine level "\x7d"
  | .function returnType name parameters body result =>
    indentedLine level ("func " ++ returnType.keyword ++ " " ++ name.value ++ "(" ++
        parametersCanonical parameters ++ ") \x7b") ++
      body.canonical (level + 1) ++ indentedLine (level + 1) ("ret " ++ result.value) ++
      indentedLine level "\x7d"
  | .call name arguments =>
    indentedLine level (name.value ++ "(" ++ parametersCanonical arguments ++ ")")

/-- The lines of an `if` chain; the first line starts with the given text. -/
def Branch.canonical (level : Nat) (opening : String) : Branch → String
  | .last condition body =>
    indentedLine level (opening ++ "if (" ++ condition.canonical ++ ") \x7b") ++
      body.canonical (level + 1) ++ indentedLine level "\x7d"
  | .orElse condition body next =>
    indentedLine level (opening ++ "if (" ++ condition.canonical ++ ") \x7b") ++
      body.canonical (level + 1) ++ next.canonical level "\x7d else "

/-- The lines of the statements of a block, one after another. -/
def Block.canonical (level : Nat) : Block → String
  | .nil => ""
  | .cons first rest => first.canonical level ++ rest.canonical level

end

/-- The text of a program. -/
def Program.canonical (program : Program) : String :=
  indentedLine 0 "Start" ++ program.body.canonical 1 ++ indentedLine 0 "End"

end StartEnd
