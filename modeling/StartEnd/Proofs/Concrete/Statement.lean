import StartEnd.Parse.Statement
import StartEnd.Proofs.Concrete.Expression

/-!
# Statements as they are written

A concrete statement keeps the parentheses of its expressions and says of every `if`
body whether it stands between braces. It is placed before a kind when a parse that
stops before a token of that kind has found it: no operator extends an expression, no
statement extends a body without braces, and no `else` continues a chain. So a body
without braces takes all statements that follow, and an `else` belongs to the nearest
`if`.

The content of a body or of an `if` link is its marks inside the construct that it is.
-/

namespace StartEnd

/-- Kinds with which a statement begins. -/
def Parse.BeginsStatement (kind : Token.Kind) : Prop :=
  (Tables.standard.statement kind).isSome = true

instance (kind : Token.Kind) : Decidable (Parse.BeginsStatement kind) :=
  inferInstanceAs (Decidable (_ = _))

namespace Concrete

/-- An assignment of a concrete expression. -/
structure Assign where
  target : Identifier
  value : Expr
deriving DecidableEq

namespace Assign

/-- The assignment without the parentheses of its value. -/
def tree (assign : Assign) : StartEnd.Assign := ⟨assign.target, assign.value.tree⟩

/-- The marks of an assignment. -/
def marks (assign : Assign) : List Mark :=
  .named assign.target.value :: .fixed .assignment :: assign.value.marks

/-- The productions of an assignment. -/
def rules (assign : Assign) : List Rule :=
  .id :: (assign.value.rulesAt .lowest ++ [.assign])

end Assign

/-- How a loop moves on, as it is written. -/
inductive Step where
  | increment (name : Identifier)
  | decrement (name : Identifier)
  | assign (assignment : Assign)
deriving DecidableEq

namespace Step

/-- The advance of a loop without parentheses. -/
def tree : Step → StartEnd.Step
  | increment name => .increment name
  | decrement name => .decrement name
  | assign assignment => .assign assignment.tree

/-- The expression of an advance fits. -/
def Fits : Step → Prop
  | increment _ | decrement _ => True
  | assign assignment => assignment.value.Fits

/-- The marks of an advance. -/
def marks : Step → List Mark
  | increment name => [.fixed .plusPlus, .named name.value]
  | decrement name => [.fixed .minusMinus, .named name.value]
  | assign assignment => assignment.marks

/-- The productions of an advance. -/
def rules : Step → List Rule
  | increment _ => [.id, .stepIncrement]
  | decrement _ => [.id, .stepDecrement]
  | assign assignment => assignment.rules ++ [.stepAssign]

end Step

/-- The marks of typed names between commas. -/
def parameterMarks : List Parameter → List Mark
  | [] => []
  | [only] => [.fixed only.dataType.kind, .named only.name.value]
  | first :: second :: rest =>
    .fixed first.dataType.kind :: .named first.name.value :: .fixed .comma ::
      parameterMarks (second :: rest)

/-- The productions of the types and names in a list of typed names. -/
def parameterRules (parameters : List Parameter) : List Rule :=
  parameters.flatMap fun parameter => [Parse.dataTypeRule parameter.dataType, .id]

/-- The productions that make a list of typed names. -/
def parametersRules (parameters : List Parameter) : List Rule :=
  parameterRules parameters ++
    .parameterLast :: List.replicate (parameters.length - 1) .parameterCons

/-- Marks between braces, if there are braces. -/
def enclosed (braced : Bool) (marks : List Mark) : List Mark :=
  if braced then .fixed .openCurly :: (marks ++ [.fixed .closeCurly]) else marks

/-- Every typed name has a mark. -/
theorem length_le_parameterMarks (parameters : List Parameter) :
    parameters.length ≤ (parameterMarks parameters).length := by
  match parameters with
  | [] => exact Nat.zero_le _
  | [only] => simp [parameterMarks]
  | first :: second :: rest =>
    have further := length_le_parameterMarks (second :: rest)
    simp only [parameterMarks, List.length_cons] at further ⊢
    omega

/-- Braces take no mark away. -/
theorem length_le_enclosed (braced : Bool) (marks : List Mark) :
    marks.length ≤ (enclosed braced marks).length := by
  cases braced with
  | true =>
    simp only [enclosed, ↓reduceIte, List.length_cons, List.length_append]
    omega
  | false => exact Nat.le_refl _

mutual

/-- One statement. -/
inductive Stmt where
  | assign (assignment : Assign)
  | declaration (dataType : DataType) (assignment : Assign)
  | branch (link : Link)
  | repetition (dataType : DataType) (init : Assign) (condition : Condition) (step : Step)
      (body : Body)
  | function (returnType : DataType) (name : Identifier) (parameters : List Parameter)
      (body : Body) (result : Identifier)
  | call (name : Identifier) (arguments : List Parameter)

/-- One link of an `if` chain, with or without braces around its body. -/
inductive Link where
  | last (condition : Condition) (braced : Bool) (body : Body)
  | orElse (condition : Condition) (braced : Bool) (body : Body) (next : Link)

/-- Statements in order. -/
inductive Body where
  | nil
  | cons (first : Stmt) (rest : Body)

end

mutual

/-- The statement without parentheses and optional braces. -/
def Stmt.tree : Stmt → StartEnd.Stmt
  | .assign assignment => .assign assignment.tree
  | .declaration dataType assignment => .declaration dataType assignment.tree
  | .branch link => .branch link.tree
  | .repetition dataType init condition step body =>
    .repetition dataType init.tree condition.tree step.tree body.tree
  | .function returnType name parameters body result =>
    .function returnType name parameters body.tree result
  | .call name arguments => .call name arguments

/-- The link without parentheses and optional braces. -/
def Link.tree : Link → Branch
  | .last condition _ body => .last condition.tree body.tree
  | .orElse condition _ body next => .orElse condition.tree body.tree next.tree

/-- The statements without parentheses and optional braces. -/
def Body.tree : Body → Block
  | .nil => .nil
  | .cons first rest => .cons first.tree rest.tree

end

mutual

/-- The marks of a statement. -/
def Stmt.marks : Stmt → List Mark
  | .assign assignment => assignment.marks
  | .declaration dataType assignment => .fixed dataType.kind :: assignment.marks
  | .branch link => raised link.content
  | .repetition dataType init condition step body =>
    .fixed .repWord :: .fixed .openParen :: .fixed dataType.kind ::
      (init.marks ++ .fixed .semicolon :: (condition.marks ++ .fixed .semicolon ::
        (step.marks ++ .fixed .closeParen :: .fixed .openCurly ::
          (raised body.content ++ [.fixed .closeCurly]))))
  | .function returnType name parameters body result =>
    .fixed .funcWord :: .fixed returnType.kind :: .named name.value :: .fixed .openParen ::
      (parameterMarks parameters ++ .fixed .closeParen :: .fixed .openCurly ::
        (raised body.content ++ [.fixed .retWord, .named result.value, .fixed .closeCurly]))
  | .call name arguments =>
    .named name.value :: .fixed .openParen ::
      (parameterMarks arguments ++ [.fixed .closeParen])

/-- The marks of a link inside the construct that it is. -/
def Link.content : Link → List Mark
  | .last condition braced body =>
    .fixed .ifWord :: .fixed .openParen :: (condition.marks ++ .fixed .closeParen ::
      enclosed braced (raised body.content))
  | .orElse condition braced body next =>
    .fixed .ifWord :: .fixed .openParen :: (condition.marks ++ .fixed .closeParen ::
      (enclosed braced (raised body.content) ++ .fixed .elseWord :: raised next.content))

/-- The marks of a body inside the construct that it is. -/
def Body.content : Body → List Mark
  | .nil => []
  | .cons first rest => first.marks ++ rest.content

end

/-- The number of statements in a body. -/
def Body.length : Body → Nat
  | .nil => 0
  | .cons _ rest => rest.length + 1

/-- The productions that make a body of the given number of statements. -/
def bodyRules (count : Nat) : List Rule := .bodySingle :: List.replicate (count - 1) .bodyCons

mutual

/-- The productions of a statement, without the one that makes it a statement. -/
def Stmt.rules : Stmt → List Rule
  | .assign assignment => assignment.rules
  | .declaration dataType assignment =>
    Parse.dataTypeRule dataType :: (assignment.rules ++ [.declaration])
  | .branch link => link.rules
  | .repetition dataType init condition step body =>
    Parse.dataTypeRule dataType :: (init.rules ++ (condition.rules ++ (step.rules ++
      (body.statementRules ++ bodyRules body.length ++ [.repetition]))))
  | .function returnType _ parameters body _ =>
    Parse.dataTypeRule returnType :: .dataType :: .id :: .name :: (parametersRules parameters ++
      (body.statementRules ++ bodyRules body.length ++ [.id, .functionDecl]))
  | .call _ arguments => .id :: .name :: (parametersRules arguments ++ [.functionCall])

/-- The productions of a link. -/
def Link.rules : Link → List Rule
  | .last condition _ body =>
    condition.rules ++ (body.statementRules ++ bodyRules body.length ++ [.branchThen])
  | .orElse condition _ body next =>
    condition.rules ++ (body.statementRules ++ bodyRules body.length ++
      (next.rules ++ [.branchElse]))

/-- The productions of the statements of a body. -/
def Body.statementRules : Body → List Rule
  | .nil => []
  | .cons first rest => first.rules ++ Parse.statementRule first.tree :: rest.statementRules

end

/-- The productions of a body. -/
def Body.rules (body : Body) : List Rule := body.statementRules ++ bodyRules body.length

/-- The kind with which a statement begins. -/
def Stmt.firstKind : Stmt → Token.Kind
  | .assign _ | .call _ _ => .identifier
  | .declaration dataType _ => dataType.kind
  | .branch _ => .ifWord
  | .repetition _ _ _ _ _ => .repWord
  | .function _ _ _ _ _ => .funcWord

/-- The kind with which statements begin, or the given one if there are none. -/
def Body.firstKind (next : Token.Kind) : Body → Token.Kind
  | .nil => next
  | .cons first _ => first.firstKind

mutual

/-- A parse that stops before a token of the given kind has found the statement. -/
def Stmt.Placed (next : Token.Kind) : Stmt → Prop
  | .assign assignment => assignment.value.Fits ∧ Parse.Settles .lowest next
  | .declaration _ assignment => assignment.value.Fits ∧ Parse.Settles .lowest next
  | .branch link => link.Placed next
  | .repetition _ init condition step body =>
    init.value.Fits ∧ condition.Fits ∧ step.Fits ∧ body.Follow .closeCurly ∧ body ≠ .nil
  | .function _ _ parameters body _ =>
    parameters ≠ [] ∧ body.Follow .retWord ∧ body ≠ .nil
  | .call _ arguments => arguments ≠ []

/-- A parse that stops before a token of the given kind has found the link. -/
def Link.Placed (next : Token.Kind) : Link → Prop
  | .last condition braced body =>
    condition.Fits ∧ body.Follow (if braced then .closeCurly else next) ∧ body ≠ .nil ∧
      next ≠ .elseWord
  | .orElse condition braced body rest =>
    condition.Fits ∧ body.Follow (if braced then .closeCurly else .elseWord) ∧ body ≠ .nil ∧
      rest.Placed next

/-- A parse that stops before a token of the given kind has found the statements, none
of them if no statement begins there. -/
def Body.Follow (next : Token.Kind) : Body → Prop
  | .nil => ¬ Parse.BeginsStatement next
  | .cons first rest => first.Placed (rest.firstKind next) ∧ rest.Follow next

end

/-- A parse that stops before a token of the given kind has found the body. -/
def Body.Placed (next : Token.Kind) (body : Body) : Prop := body.Follow next ∧ body ≠ .nil

/-- The marks of a statement begin with its first kind. -/
theorem Stmt.marks_eq_cons (statement : Stmt) :
    ∃ first rest, statement.marks = first :: rest ∧ first.kind = statement.firstKind := by
  match statement with
  | .assign assignment => exact ⟨_, _, rfl, rfl⟩
  | .declaration dataType assignment => exact ⟨_, _, rfl, rfl⟩
  | .branch (.last condition braced body) => exact ⟨_, _, rfl, rfl⟩
  | .branch (.orElse condition braced body next) => exact ⟨_, _, rfl, rfl⟩
  | .repetition dataType init condition step body => exact ⟨_, _, rfl, rfl⟩
  | .function returnType name parameters body result => exact ⟨_, _, rfl, rfl⟩
  | .call name arguments => exact ⟨_, _, rfl, rfl⟩

/-- Every statement begins with a kind that begins statements. -/
theorem Stmt.beginsStatement_firstKind (statement : Stmt) :
    Parse.BeginsStatement statement.firstKind := by
  cases statement with
  | declaration dataType assignment => cases dataType <;> rfl
  | _ => rfl

/-- A link is not empty. -/
theorem Link.content_ne_nil (link : Link) : link.content ≠ [] := by
  cases link <;> simp [Link.content]

/-- A body with a statement has marks. -/
theorem Body.content_ne_nil {body : Body} (present : body ≠ .nil) : body.content ≠ [] := by
  cases body with
  | nil => exact absurd rfl present
  | cons first rest =>
    obtain ⟨mark, marks, same, _⟩ := first.marks_eq_cons
    simp [Body.content, same]

/-- Every statement of a body has a mark. -/
theorem Body.length_le (body : Body) : body.length ≤ body.content.length := by
  match body with
  | .nil => exact Nat.zero_le _
  | .cons first rest =>
    obtain ⟨mark, marks, same, _⟩ := first.marks_eq_cons
    have further : rest.length ≤ rest.content.length := rest.length_le
    simp only [Body.length, Body.content, List.length_append, same, List.length_cons]
    omega

/-- A body has as many statements as its tree. -/
theorem Body.length_tree (body : Body) : body.tree.toList.length = body.length := by
  match body with
  | .nil => rfl
  | .cons first rest =>
    simp [Body.tree, Block.toList, Body.length, rest.length_tree]

end Concrete

end StartEnd
