import StartEnd.Json
import StartEnd.Tree

/-!
# Trees as documents

A record is written as an object with one member for each field, and a variant as
an object whose only member is named for the variant. Reading ignores members that
are not fields, takes a missing `else_body` for an absent one, and refuses every
other missing field and every unknown variant. A record given as an array is read
by the order of its fields, which each reader states.
-/

namespace StartEnd

/-- A variant with content. -/
def Json.tagged (tag : String) (content : Json) : Json := .object [(tag, content)]

/-- Reads every item of a list, or none if one cannot be read. -/
def readAll {α : Type} (read : Json → Option α) : List Json → Option (List α)
  | [] => some []
  | first :: rest => do return (← read first) :: (← readAll read rest)

/-- Reads a field of a record that has the given fields. -/
def Json.readPart {α : Type} (document : Json) (fields : List String) (key : String)
    (read : Json → Option α) : Option α := do
  read (← document.part? fields key).1

/-- The document of a data type. -/
def DataType.toJson (dataType : DataType) : Json := .string dataType.name

/-- Reads a data type. -/
def DataType.ofJson? (document : Json) : Option DataType := do
  DataType.ofName? (← document.plainVariant?)

/-- Reads an arithmetic operator. -/
def Operator.ofJson? (document : Json) : Option Operator := do
  Operator.ofName? (← document.plainVariant?)

/-- Reads a comparison. -/
def Comparison.ofJson? (document : Json) : Option Comparison := do
  Comparison.ofName? (← document.plainVariant?)

/-- The fields of a name. -/
def Identifier.fields : List String := ["value"]

/-- The document of a name. -/
def Identifier.toJson (name : Identifier) : Json := .object [("value", .string name.value)]

/-- Reads a name. -/
def Identifier.ofJson? (document : Json) : Option Identifier := do
  return ⟨← document.readPart fields "value" Json.text?⟩

/-- The fields of an operation. -/
def Expr.binaryFields : List String := ["left", "operator", "right"]

/-- The fields of a number. -/
def Expr.numberFields : List String := ["value"]

/-- The document of an expression. -/
def Expr.toJson : Expr → Json
  | .binary left operator right =>
    .tagged "Binary" (.object
      [("left", left.toJson), ("operator", .string operator.name), ("right", right.toJson)])
  | .symbol name => .tagged "Symbol" name.toJson
  | .number digits => .tagged "Number" (.object [("value", .string digits)])

/-- Reads an expression. -/
def Expr.ofJson? : Json → Option Expr
  | .object [(tag, content)] =>
    if tag = "Binary" then do
      let ⟨left, _⟩ ← content.part? binaryFields "left"
      let ⟨right, _⟩ ← content.part? binaryFields "right"
      let operator ← content.readPart binaryFields "operator" Operator.ofJson?
      return .binary (← Expr.ofJson? left) operator (← Expr.ofJson? right)
    else if tag = "Symbol" then do return .symbol (← Identifier.ofJson? content)
    else if tag = "Number" then do
      return .number (← content.readPart numberFields "value" Json.text?)
    else none
  | _ => none
termination_by document => sizeOf document
decreasing_by
  all_goals
    simp only [Json.object.sizeOf_spec, List.cons.sizeOf_spec, Prod.mk.sizeOf_spec]
    omega

/-- The fields of a comparison. -/
def Condition.fields : List String := ["left", "operator", "right"]

/-- The document of a comparison. -/
def Condition.toJson (condition : Condition) : Json :=
  .object
    [("left", condition.left.toJson), ("operator", .string condition.operator.name),
      ("right", condition.right.toJson)]

/-- Reads a comparison of two expressions. -/
def Condition.ofJson? (document : Json) : Option Condition := do
  return {
    left := ← document.readPart fields "left" Expr.ofJson?
    operator := ← document.readPart fields "operator" Comparison.ofJson?
    right := ← document.readPart fields "right" Expr.ofJson? }

/-- The fields of an assignment. -/
def Assign.fields : List String := ["target", "value"]

/-- The document of an assignment. -/
def Assign.toJson (assign : Assign) : Json :=
  .object [("target", assign.target.toJson), ("value", assign.value.toJson)]

/-- Reads an assignment. -/
def Assign.ofJson? (document : Json) : Option Assign := do
  return {
    target := ← document.readPart fields "target" Identifier.ofJson?
    value := ← document.readPart fields "value" Expr.ofJson? }

/-- The document of a loop's advance. -/
def Step.toJson : Step → Json
  | .increment name => .tagged "Increment" name.toJson
  | .decrement name => .tagged "Decrement" name.toJson
  | .assign assignment => .tagged "Assign" assignment.toJson

/-- Reads a loop's advance. -/
def Step.ofJson? : Json → Option Step
  | .object [(tag, content)] =>
    if tag = "Increment" then do return .increment (← Identifier.ofJson? content)
    else if tag = "Decrement" then do return .decrement (← Identifier.ofJson? content)
    else if tag = "Assign" then do return .assign (← Assign.ofJson? content)
    else none
  | _ => none

/-- The fields of a typed name. -/
def Parameter.fields : List String := ["data_type", "name"]

/-- The document of a typed name. -/
def Parameter.toJson (parameter : Parameter) : Json :=
  .object [("data_type", parameter.dataType.toJson), ("name", parameter.name.toJson)]

/-- Reads a typed name. -/
def Parameter.ofJson? (document : Json) : Option Parameter := do
  return {
    dataType := ← document.readPart fields "data_type" DataType.ofJson?
    name := ← document.readPart fields "name" Identifier.ofJson? }

/-- The document of a list of typed names. -/
def parametersToJson (parameters : List Parameter) : Json :=
  .array (parameters.map Parameter.toJson)

/-- Reads a list of typed names. -/
def parametersOfJson? (document : Json) : Option (List Parameter) := do
  readAll Parameter.ofJson? (← document.items?).1

/-- The fields of a declaration. -/
def Stmt.declarationFields : List String := ["data_type", "assign"]

/-- The fields of a loop. -/
def Stmt.repetitionFields : List String := ["data_type", "init", "condition", "step", "body"]

/-- The fields of a function. -/
def Stmt.functionFields : List String := ["return_type", "name", "parameters", "body", "return_id"]

/-- The fields of a call. -/
def Stmt.callFields : List String := ["name", "arguments"]

/-- The fields of a link of an `if` chain. -/
def Branch.fields : List String := ["condition", "then_body", "else_body"]

/-- The fields of a block. -/
def Block.fields : List String := ["body"]

mutual

/-- The document of a statement. -/
def Stmt.toJson : Stmt → Json
  | .assign assignment => .tagged "Assign" assignment.toJson
  | .declaration dataType assignment =>
    .tagged "Declaration" (.object
      [("data_type", dataType.toJson), ("assign", assignment.toJson)])
  | .branch link => .tagged "If" link.toJson
  | .repetition dataType init condition step body =>
    .tagged "Repeat" (.object
      [("data_type", dataType.toJson), ("init", init.toJson), ("condition", condition.toJson),
        ("step", step.toJson), ("body", body.toJson)])
  | .function returnType name parameters body result =>
    .tagged "FnDecl" (.object
      [("return_type", returnType.toJson), ("name", name.toJson),
        ("parameters", parametersToJson parameters), ("body", body.toJson),
        ("return_id", result.toJson)])
  | .call name arguments =>
    .tagged "FnCall" (.object [("name", name.toJson), ("arguments", parametersToJson arguments)])

/-- The document of a link of an `if` chain. -/
def Branch.toJson : Branch → Json
  | .last condition body =>
    .object
      [("condition", condition.toJson), ("then_body", body.toJson), ("else_body", .null)]
  | .orElse condition body next =>
    .object
      [("condition", condition.toJson), ("then_body", body.toJson), ("else_body", next.toJson)]

/-- The document of a block. -/
def Block.toJson (block : Block) : Json := .object [("body", .array block.toItems)]

/-- The documents of the statements of a block. -/
def Block.toItems : Block → List Json
  | .nil => []
  | .cons first rest => first.toJson :: rest.toItems

end

mutual

/-- Reads a statement. -/
def Stmt.ofJson? : Json → Option Stmt
  | .object [(tag, content)] =>
    if tag = "Assign" then do return .assign (← Assign.ofJson? content)
    else if tag = "Declaration" then do
      let dataType ← content.readPart Stmt.declarationFields "data_type" DataType.ofJson?
      let assignment ← content.readPart Stmt.declarationFields "assign" Assign.ofJson?
      return .declaration dataType assignment
    else if tag = "If" then do return .branch (← Branch.ofJson? content)
    else if tag = "Repeat" then do
      let dataType ← content.readPart Stmt.repetitionFields "data_type" DataType.ofJson?
      let init ← content.readPart Stmt.repetitionFields "init" Assign.ofJson?
      let condition ← content.readPart Stmt.repetitionFields "condition" Condition.ofJson?
      let step ← content.readPart Stmt.repetitionFields "step" Step.ofJson?
      let ⟨body, _⟩ ← content.part? Stmt.repetitionFields "body"
      return .repetition dataType init condition step (← Block.ofJson? body)
    else if tag = "FnDecl" then do
      let returnType ← content.readPart Stmt.functionFields "return_type" DataType.ofJson?
      let name ← content.readPart Stmt.functionFields "name" Identifier.ofJson?
      let parameters ← content.readPart Stmt.functionFields "parameters" parametersOfJson?
      let ⟨body, _⟩ ← content.part? Stmt.functionFields "body"
      let result ← content.readPart Stmt.functionFields "return_id" Identifier.ofJson?
      return .function returnType name parameters (← Block.ofJson? body) result
    else if tag = "FnCall" then do
      let name ← content.readPart Stmt.callFields "name" Identifier.ofJson?
      return .call name (← content.readPart Stmt.callFields "arguments" parametersOfJson?)
    else none
  | _ => none
termination_by document => sizeOf document
decreasing_by
  all_goals
    simp only [Json.object.sizeOf_spec, List.cons.sizeOf_spec, Prod.mk.sizeOf_spec]
    omega

/-- Reads a link of an `if` chain. -/
def Branch.ofJson? (document : Json) : Option Branch := do
  let condition ← document.readPart Branch.fields "condition" Condition.ofJson?
  let ⟨thenBody, _⟩ ← document.part? Branch.fields "then_body"
  let body ← Block.ofJson? thenBody
  match document.part? Branch.fields "else_body" with
  | none => return .last condition body
  | some ⟨elseBody, _⟩ =>
    if elseBody.isNull then return .last condition body
    else return .orElse condition body (← Branch.ofJson? elseBody)
termination_by sizeOf document

/-- Reads a block. -/
def Block.ofJson? (document : Json) : Option Block := do
  let ⟨body, _⟩ ← document.part? Block.fields "body"
  let ⟨items, _⟩ ← body.items?
  Block.ofItems? items
termination_by sizeOf document

/-- Reads the statements of a block. -/
def Block.ofItems? : List Json → Option Block
  | [] => some .nil
  | first :: rest => do return .cons (← Stmt.ofJson? first) (← Block.ofItems? rest)
termination_by items => sizeOf items

end

/-- The fields of a program. -/
def Program.fields : List String := ["body"]

/-- The document of a program. -/
def Program.toJson (program : Program) : Json := .object [("body", program.body.toJson)]

/-- Reads a program from its record, of which everything is entered. -/
def Program.ofRecord? (document : Json) : Option Program := do
  return ⟨← document.readPart fields "body" Block.ofJson?⟩

/-- Reads a stored program. -/
def Program.ofJson? (document : Json) : Option Program :=
  ofRecord? (document.entered Json.nestingLimit)

end StartEnd
