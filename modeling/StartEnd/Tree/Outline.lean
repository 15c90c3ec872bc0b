import StartEnd.Text.Quoted
import StartEnd.Tree

/-!
# Outlines of trees

An outline shows every node of a tree with its type and its fields, one to a line,
four spaces for each level. Every entry of a record, a variant or a list ends in a
comma.
-/

namespace StartEnd

/-- A value as an outline shows it. -/
inductive Outline where
  | word (text : String)
  | variant (name : String) (content : Outline)
  | record (name : String) (fields : List (String × Outline))
  | list (entries : List Outline)

namespace Outline

/-- Indentation at a level. -/
def margin (level : Nat) : String := String.join (List.replicate level "    ")

mutual

/-- The outline of a value whose first line already stands at its place. -/
def render (level : Nat) : Outline → String
  | word text => text
  | variant name content =>
    name ++ "(\n" ++ margin (level + 1) ++ content.render (level + 1) ++ ",\n" ++
      margin level ++ ")"
  | record name fields =>
    name ++ " \x7b\n" ++ renderFields (level + 1) fields ++ margin level ++ "\x7d"
  | list [] => "[]"
  | list (first :: rest) =>
    "[\n" ++ renderEntries (level + 1) (first :: rest) ++ margin level ++ "]"

/-- The fields of a record, each on lines of its own. -/
def renderFields (level : Nat) : List (String × Outline) → String
  | [] => ""
  | (name, content) :: rest =>
    margin level ++ name ++ ": " ++ content.render level ++ ",\n" ++ renderFields level rest

/-- The entries of a list, each on lines of its own. -/
def renderEntries (level : Nat) : List Outline → String
  | [] => ""
  | first :: rest => margin level ++ first.render level ++ ",\n" ++ renderEntries level rest

end

/-- A text as an outline shows it. -/
def text (value : String) : Outline := word (Text.quotedText value)

end Outline

/-- The outline of a name. -/
def Identifier.outline (name : Identifier) : Outline :=
  .record "Identifier" [("value", .text name.value)]

/-- The outline of an expression. -/
def Expr.outline : Expr → Outline
  | .binary left operator right =>
    .variant "Binary" (.record "BinaryExpr"
      [("left", left.outline), ("operator", .word operator.name), ("right", right.outline)])
  | .symbol name => .variant "Symbol" name.outline
  | .number digits => .variant "Number" (.record "NumberExpr" [("value", .text digits)])

/-- The outline of a comparison. -/
def Condition.outline (condition : Condition) : Outline :=
  .record "Condition"
    [("left", condition.left.outline), ("operator", .word condition.operator.name),
      ("right", condition.right.outline)]

/-- The outline of an assignment. -/
def Assign.outline (assign : Assign) : Outline :=
  .record "AssignStmt" [("target", assign.target.outline), ("value", assign.value.outline)]

/-- The outline of a loop's advance. -/
def Step.outline : Step → Outline
  | .increment name => .variant "Increment" name.outline
  | .decrement name => .variant "Decrement" name.outline
  | .assign assignment => .variant "Assign" assignment.outline

/-- The outline of a typed name. -/
def Parameter.outline (parameter : Parameter) : Outline :=
  .record "Parameter"
    [("data_type", .word parameter.dataType.name), ("name", parameter.name.outline)]

mutual

/-- The outline of a statement. -/
def Stmt.outline : Stmt → Outline
  | .assign assignment => .variant "Assign" assignment.outline
  | .declaration dataType assignment =>
    .variant "Declaration" (.record "DeclarationStmt"
      [("data_type", .word dataType.name), ("assign", assignment.outline)])
  | .branch link => .variant "If" link.outline
  | .repetition dataType init condition step body =>
    .variant "Repeat" (.record "RepeatStmt"
      [("data_type", .word dataType.name), ("init", init.outline),
        ("condition", condition.outline), ("step", step.outline), ("body", body.outline)])
  | .function returnType name parameters body result =>
    .variant "FnDecl" (.record "FnDeclStmt"
      [("return_type", .word returnType.name), ("name", name.outline),
        ("parameters", .list (parameters.map Parameter.outline)), ("body", body.outline),
        ("return_id", result.outline)])
  | .call name arguments =>
    .variant "FnCall" (.record "FnCallStmt"
      [("name", name.outline), ("arguments", .list (arguments.map Parameter.outline))])

/-- The outline of a link of an `if` chain. -/
def Branch.outline : Branch → Outline
  | .last condition body =>
    .record "IfStmt"
      [("condition", condition.outline), ("then_body", body.outline), ("else_body", .word "None")]
  | .orElse condition body next =>
    .record "IfStmt"
      [("condition", condition.outline), ("then_body", body.outline),
        ("else_body", .variant "Some" next.outline)]

/-- The outline of a block. -/
def Block.outline (block : Block) : Outline :=
  .record "BlockStmt" [("body", .list block.outlines)]

/-- The outlines of the statements of a block. -/
def Block.outlines : Block → List Outline
  | .nil => []
  | .cons first rest => first.outline :: rest.outlines

end

/-- The outline of a program. -/
def Program.outline (program : Program) : Outline :=
  .record "Program" [("body", program.body.outline)]

end StartEnd
