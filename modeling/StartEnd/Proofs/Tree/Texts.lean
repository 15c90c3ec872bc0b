import StartEnd.Tree

/-!
# The texts of a tree

The leaves of a tree are its names and numbers, in the order in which a text has them. A
tree can be given other texts, the first one for its first leaf and so on, and what it has
besides its texts stays as it is. So a tree is determined by its texts and by what is left
when all of these are empty, which is the same tree with no texts given.
-/

namespace StartEnd

/-- A name with the first of the given texts. -/
def Identifier.relabel (texts : List String) (_ : Identifier) : Identifier := ⟨texts.headD ""⟩

/-- Giving a name its own text changes nothing. -/
@[simp] theorem Identifier.relabel_cons (name : Identifier) (rest : List String) :
    name.relabel (name.value :: rest) = name := rfl

/-- Only the text that is given last counts. -/
@[simp] theorem Identifier.relabel_relabel (texts others : List String) (name : Identifier) :
    (name.relabel texts).relabel others = name.relabel others := rfl

namespace Expr

/-- The names and numbers of an expression. -/
def texts : Expr → List String
  | binary left _ right => left.texts ++ right.texts
  | symbol name => [name.value]
  | number digits => [digits]

/-- An expression with the given texts. -/
def relabel (texts : List String) : Expr → Expr
  | binary left operator right =>
    binary (left.relabel texts) operator (right.relabel (texts.drop left.texts.length))
  | symbol name => symbol (name.relabel texts)
  | number _ => number (texts.headD "")

/-- Other texts are as many. -/
@[simp] theorem length_texts_relabel (texts : List String) (expr : Expr) :
    (expr.relabel texts).texts.length = expr.texts.length := by
  induction expr generalizing texts with
  | binary left operator right leftHypothesis rightHypothesis =>
    simp [relabel, Expr.texts, leftHypothesis, rightHypothesis]
  | symbol name => rfl
  | number digits => rfl

/-- Only the texts that are given last count. -/
@[simp] theorem relabel_relabel (texts others : List String) (expr : Expr) :
    (expr.relabel texts).relabel others = expr.relabel others := by
  induction expr generalizing texts others with
  | binary left operator right leftHypothesis rightHypothesis =>
    simp [relabel, leftHypothesis, rightHypothesis]
  | symbol name => rfl
  | number digits => rfl

/-- Giving an expression its own texts changes nothing. -/
@[simp] theorem relabel_texts (expr : Expr) (rest : List String) :
    expr.relabel (expr.texts ++ rest) = expr := by
  induction expr generalizing rest with
  | binary left operator right leftHypothesis rightHypothesis =>
    simp [relabel, Expr.texts, leftHypothesis, rightHypothesis]
  | symbol name => rfl
  | number digits => rfl

end Expr

namespace Condition

/-- The names and numbers of a comparison. -/
def texts (condition : Condition) : List String := condition.left.texts ++ condition.right.texts

/-- A comparison with the given texts. -/
def relabel (texts : List String) (condition : Condition) : Condition :=
  { condition with
    left := condition.left.relabel texts
    right := condition.right.relabel (texts.drop condition.left.texts.length) }

@[simp] theorem length_texts_relabel (texts : List String) (condition : Condition) :
    (condition.relabel texts).texts.length = condition.texts.length := by
  simp [relabel, Condition.texts]

@[simp] theorem relabel_relabel (texts others : List String) (condition : Condition) :
    (condition.relabel texts).relabel others = condition.relabel others := by
  simp [relabel]

@[simp] theorem relabel_texts (condition : Condition) (rest : List String) :
    condition.relabel (condition.texts ++ rest) = condition := by
  simp [relabel, Condition.texts]

end Condition

namespace Assign

/-- The target of an assignment and what its value has. -/
def texts (assign : Assign) : List String := assign.target.value :: assign.value.texts

/-- An assignment with the given texts. -/
def relabel (texts : List String) (assign : Assign) : Assign where
  target := assign.target.relabel texts
  value := assign.value.relabel texts.tail

@[simp] theorem length_texts_relabel (texts : List String) (assign : Assign) :
    (assign.relabel texts).texts.length = assign.texts.length := by
  simp [relabel, Assign.texts]

@[simp] theorem relabel_relabel (texts others : List String) (assign : Assign) :
    (assign.relabel texts).relabel others = assign.relabel others := by
  simp [relabel]

@[simp] theorem relabel_texts (assign : Assign) (rest : List String) :
    assign.relabel (assign.texts ++ rest) = assign := by
  simp [relabel, Assign.texts]

end Assign

namespace Step

/-- The names and numbers of an advance. -/
def texts : Step → List String
  | increment name | decrement name => [name.value]
  | assign assignment => assignment.texts

/-- An advance with the given texts. -/
def relabel (texts : List String) : Step → Step
  | increment name => increment (name.relabel texts)
  | decrement name => decrement (name.relabel texts)
  | assign assignment => assign (assignment.relabel texts)

@[simp] theorem length_texts_relabel (texts : List String) (step : Step) :
    (step.relabel texts).texts.length = step.texts.length := by
  cases step <;> simp [relabel, Step.texts]

@[simp] theorem relabel_relabel (texts others : List String) (step : Step) :
    (step.relabel texts).relabel others = step.relabel others := by
  cases step <;> simp [relabel]

@[simp] theorem relabel_texts (step : Step) (rest : List String) :
    step.relabel (step.texts ++ rest) = step := by
  cases step <;> simp [relabel, Step.texts]

end Step

namespace Parameter

/-- The names of typed names. -/
def listTexts (parameters : List Parameter) : List String := parameters.map (·.name.value)

/-- Typed names with the given texts. -/
def relabelList : List String → List Parameter → List Parameter
  | _, [] => []
  | texts, first :: rest =>
    { first with name := first.name.relabel texts } :: relabelList texts.tail rest

@[simp] theorem length_listTexts (parameters : List Parameter) :
    (listTexts parameters).length = parameters.length := List.length_map _

@[simp] theorem length_relabelList (texts : List String) (parameters : List Parameter) :
    (relabelList texts parameters).length = parameters.length := by
  induction parameters generalizing texts with
  | nil => rfl
  | cons first rest inductionHypothesis => simp [relabelList, inductionHypothesis]

@[simp] theorem relabelList_relabelList (texts others : List String)
    (parameters : List Parameter) :
    relabelList others (relabelList texts parameters) = relabelList others parameters := by
  induction parameters generalizing texts others with
  | nil => rfl
  | cons first rest inductionHypothesis => simp [relabelList, inductionHypothesis]

@[simp] theorem relabelList_texts (parameters : List Parameter) (rest : List String) :
    relabelList (listTexts parameters ++ rest) parameters = parameters := by
  induction parameters with
  | nil => rfl
  | cons first others inductionHypothesis =>
    have whole : listTexts (first :: others) = first.name.value :: listTexts others := rfl
    simp [relabelList, whole, inductionHypothesis]

end Parameter

mutual

/-- The names and numbers of a statement. -/
def Stmt.texts : Stmt → List String
  | .assign assignment => assignment.texts
  | .declaration _ assignment => assignment.texts
  | .branch link => link.texts
  | .repetition _ init condition step body =>
    init.texts ++ (condition.texts ++ (step.texts ++ body.texts))
  | .function _ name parameters body result =>
    name.value :: (Parameter.listTexts parameters ++ (body.texts ++ [result.value]))
  | .call name arguments => name.value :: Parameter.listTexts arguments

/-- The names and numbers of an `if` chain. -/
def Branch.texts : Branch → List String
  | .last condition body => condition.texts ++ body.texts
  | .orElse condition body next => condition.texts ++ (body.texts ++ next.texts)

/-- The names and numbers of a block. -/
def Block.texts : Block → List String
  | .nil => []
  | .cons first rest => first.texts ++ rest.texts

end

mutual

/-- A statement with the given texts. -/
def Stmt.relabel (texts : List String) : Stmt → Stmt
  | .assign assignment => .assign (assignment.relabel texts)
  | .declaration dataType assignment => .declaration dataType (assignment.relabel texts)
  | .branch link => .branch (link.relabel texts)
  | .repetition dataType init condition step body =>
    .repetition dataType (init.relabel texts) (condition.relabel (texts.drop init.texts.length))
      (step.relabel (texts.drop (init.texts.length + condition.texts.length)))
      (body.relabel
        (texts.drop (init.texts.length + condition.texts.length + step.texts.length)))
  | .function returnType name parameters body result =>
    .function returnType (name.relabel texts) (Parameter.relabelList texts.tail parameters)
      (body.relabel (texts.tail.drop parameters.length))
      (result.relabel (texts.tail.drop (parameters.length + body.texts.length)))
  | .call name arguments => .call (name.relabel texts) (Parameter.relabelList texts.tail arguments)

/-- An `if` chain with the given texts. -/
def Branch.relabel (texts : List String) : Branch → Branch
  | .last condition body =>
    .last (condition.relabel texts) (body.relabel (texts.drop condition.texts.length))
  | .orElse condition body next =>
    .orElse (condition.relabel texts) (body.relabel (texts.drop condition.texts.length))
      (next.relabel (texts.drop (condition.texts.length + body.texts.length)))

/-- A block with the given texts. -/
def Block.relabel (texts : List String) : Block → Block
  | .nil => .nil
  | .cons first rest =>
    .cons (first.relabel texts) (rest.relabel (texts.drop first.texts.length))

end

mutual

/-- Other texts of a statement are as many. -/
@[simp] theorem Stmt.length_texts_relabel (texts : List String) (statement : Stmt) :
    (statement.relabel texts).texts.length = statement.texts.length := by
  match statement with
  | .assign assignment => simp [Stmt.relabel, Stmt.texts]
  | .declaration _ assignment => simp [Stmt.relabel, Stmt.texts]
  | .branch link => simp [Stmt.relabel, Stmt.texts, link.length_texts_relabel]
  | .repetition _ init condition step body =>
    simp [Stmt.relabel, Stmt.texts, body.length_texts_relabel]
  | .function _ name parameters body result =>
    simp [Stmt.relabel, Stmt.texts, body.length_texts_relabel]
  | .call name arguments => simp [Stmt.relabel, Stmt.texts]

/-- Other texts of an `if` chain are as many. -/
@[simp] theorem Branch.length_texts_relabel (texts : List String) (link : Branch) :
    (link.relabel texts).texts.length = link.texts.length := by
  match link with
  | .last condition body => simp [Branch.relabel, Branch.texts, body.length_texts_relabel]
  | .orElse condition body next =>
    simp [Branch.relabel, Branch.texts, body.length_texts_relabel, next.length_texts_relabel]

/-- Other texts of a block are as many. -/
@[simp] theorem Block.length_texts_relabel (texts : List String) (block : Block) :
    (block.relabel texts).texts.length = block.texts.length := by
  match block with
  | .nil => rfl
  | .cons first rest =>
    simp [Block.relabel, Block.texts, first.length_texts_relabel, rest.length_texts_relabel]

end

mutual

/-- Only the texts that a statement is given last count. -/
@[simp] theorem Stmt.relabel_relabel (texts others : List String) (statement : Stmt) :
    (statement.relabel texts).relabel others = statement.relabel others := by
  match statement with
  | .assign assignment => simp [Stmt.relabel]
  | .declaration _ assignment => simp [Stmt.relabel]
  | .branch link => simp [Stmt.relabel, link.relabel_relabel]
  | .repetition _ init condition step body => simp [Stmt.relabel, body.relabel_relabel]
  | .function _ name parameters body result => simp [Stmt.relabel, body.relabel_relabel]
  | .call name arguments => simp [Stmt.relabel]

/-- Only the texts that an `if` chain is given last count. -/
@[simp] theorem Branch.relabel_relabel (texts others : List String) (link : Branch) :
    (link.relabel texts).relabel others = link.relabel others := by
  match link with
  | .last condition body => simp [Branch.relabel, body.relabel_relabel]
  | .orElse condition body next => simp [Branch.relabel, body.relabel_relabel, next.relabel_relabel]

/-- Only the texts that a block is given last count. -/
@[simp] theorem Block.relabel_relabel (texts others : List String) (block : Block) :
    (block.relabel texts).relabel others = block.relabel others := by
  match block with
  | .nil => rfl
  | .cons first rest => simp [Block.relabel, first.relabel_relabel, rest.relabel_relabel]

end

mutual

/-- Giving a statement its own texts changes nothing. -/
@[simp] theorem Stmt.relabel_texts (statement : Stmt) (rest : List String) :
    statement.relabel (statement.texts ++ rest) = statement := by
  match statement with
  | .assign assignment => simp [Stmt.relabel, Stmt.texts]
  | .declaration _ assignment => simp [Stmt.relabel, Stmt.texts]
  | .branch link => simp [Stmt.relabel, Stmt.texts, link.relabel_texts]
  | .repetition _ init condition step body =>
    simp [Stmt.relabel, Stmt.texts, body.relabel_texts, ← List.drop_drop]
  | .function _ name parameters body result =>
    simp [Stmt.relabel, Stmt.texts, body.relabel_texts, ← List.drop_drop]
  | .call name arguments => simp [Stmt.relabel, Stmt.texts]

/-- Giving an `if` chain its own texts changes nothing. -/
@[simp] theorem Branch.relabel_texts (link : Branch) (rest : List String) :
    link.relabel (link.texts ++ rest) = link := by
  match link with
  | .last condition body => simp [Branch.relabel, Branch.texts, body.relabel_texts]
  | .orElse condition body next =>
    simp [Branch.relabel, Branch.texts, body.relabel_texts, next.relabel_texts, ← List.drop_drop]

/-- Giving a block its own texts changes nothing. -/
@[simp] theorem Block.relabel_texts (block : Block) (rest : List String) :
    block.relabel (block.texts ++ rest) = block := by
  match block with
  | .nil => rfl
  | .cons first others =>
    simp [Block.relabel, Block.texts, first.relabel_texts, others.relabel_texts]

end

/-- The names and numbers of a block are those of its statements. -/
theorem Block.texts_ofList (statements : List Stmt) :
    (Block.ofList statements).texts = statements.flatMap Stmt.texts := by
  induction statements with
  | nil => rfl
  | cons first rest inductionHypothesis =>
    simp [Block.ofList, Block.texts, inductionHypothesis]

/-- A block without texts is one of statements without texts. -/
theorem Block.relabel_nil_ofList (statements : List Stmt) :
    (Block.ofList statements).relabel [] = .ofList (statements.map (Stmt.relabel [])) := by
  induction statements with
  | nil => rfl
  | cons first rest inductionHypothesis =>
    simp [Block.ofList, Block.relabel, inductionHypothesis]

namespace Program

/-- The names and numbers of a program. -/
def texts (program : Program) : List String := program.body.texts

/-- A program with the given texts. -/
def relabel (texts : List String) (program : Program) : Program := ⟨program.body.relabel texts⟩

/-- Programs that are alike but for their texts become equal when they are given the same
ones. -/
theorem relabel_of_alike {program other : Program} (alike : other.relabel [] = program.relabel [])
    (rest : List String) : program.relabel (other.texts ++ rest) = other := by
  have given (program : Program) : (program.relabel []).relabel (other.texts ++ rest) =
      program.relabel (other.texts ++ rest) := by
    simp [relabel]
  rw [← given program, ← alike, given other]
  simp [relabel, texts]

end Program

end StartEnd
