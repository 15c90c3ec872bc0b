import StartEnd.Tree.Operator

/-!
# Program trees

A program is a block of statements. Expressions keep their grouping but no trace
of parentheses, and `else` branches form a chain of `if` links. Trees are wider
than programs: an empty block, an empty parameter list or an arbitrary text for a
name can be represented, although no program text has them.
-/

namespace StartEnd

/-- The name of a variable, function or parameter. -/
structure Identifier where
  value : String
deriving DecidableEq, Inhabited

/-- Arithmetic over names and numbers. Digits are kept as they were written. -/
inductive Expr where
  | binary (left : Expr) (operator : Operator) (right : Expr)
  | symbol (name : Identifier)
  | number (digits : String)
deriving DecidableEq, Inhabited

/-- A single comparison of two expressions. -/
structure Condition where
  left : Expr
  operator : Comparison
  right : Expr
deriving DecidableEq, Inhabited

/-- A value given to a name. -/
structure Assign where
  target : Identifier
  value : Expr
deriving DecidableEq, Inhabited

/-- How a loop moves on after each round. -/
inductive Step where
  | increment (name : Identifier)
  | decrement (name : Identifier)
  | assign (assignment : Assign)
deriving DecidableEq, Inhabited

/-- A typed name, in declarations and in calls. -/
structure Parameter where
  dataType : DataType
  name : Identifier
deriving DecidableEq, Inhabited

mutual

/-- One statement. -/
inductive Stmt where
  | assign (assignment : Assign)
  | declaration (dataType : DataType) (assignment : Assign)
  | branch (link : Branch)
  | repetition (dataType : DataType) (init : Assign) (condition : Condition) (step : Step)
      (body : Block)
  | function (returnType : DataType) (name : Identifier) (parameters : List Parameter)
      (body : Block) (result : Identifier)
  | call (name : Identifier) (arguments : List Parameter)

/-- One link of an `if` chain: the last one, or one that an `else` continues. -/
inductive Branch where
  | last (condition : Condition) (body : Block)
  | orElse (condition : Condition) (body : Block) (next : Branch)

/-- Statements in order. -/
inductive Block where
  | nil
  | cons (first : Stmt) (rest : Block)

end

deriving instance DecidableEq for Stmt, Branch, Block

/-- What stands between the opening and the closing word of a text. -/
structure Program where
  body : Block
deriving DecidableEq

namespace Stmt

/-- The name of a statement's form. -/
def formName : Stmt → String
  | assign _ => "Assign"
  | declaration _ _ => "Declaration"
  | branch _ => "If"
  | repetition _ _ _ _ _ => "Repeat"
  | function _ _ _ _ _ => "FnDecl"
  | call _ _ => "FnCall"

end Stmt

namespace Branch

/-- The condition of a link. -/
def condition : Branch → Condition
  | last condition _ | orElse condition _ _ => condition

/-- The statements that a link guards. -/
def body : Branch → Block
  | last _ body | orElse _ body _ => body

/-- The link behind `else`. -/
def next? : Branch → Option Branch
  | last _ _ => none
  | orElse _ _ next => some next

end Branch

namespace Block

/-- The statements of a block. -/
def toList : Block → List Stmt
  | nil => []
  | cons first rest => first :: rest.toList

/-- The block of some statements. -/
def ofList : List Stmt → Block
  | [] => nil
  | first :: rest => cons first (ofList rest)

/-- The number of statements in a block. -/
def length (block : Block) : Nat := block.toList.length

/-- Whether a block has no statement. -/
def isEmpty (block : Block) : Bool := block.toList.isEmpty

/-- Reading a block off a list and back gives the list. -/
@[simp] theorem toList_ofList (statements : List Stmt) :
    (ofList statements).toList = statements := by
  induction statements with
  | nil => rfl
  | cons first rest inductionHypothesis => simp [ofList, toList, inductionHypothesis]

/-- Listing a block and collecting the list gives the block. -/
@[simp] theorem ofList_toList (block : Block) : ofList block.toList = block := by
  match block with
  | nil => rfl
  | cons first rest => simp [ofList, toList, ofList_toList rest]

end Block

end StartEnd
