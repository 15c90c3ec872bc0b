import StartEnd.Proofs.Lexing.Delivery
import StartEnd.Tree.Canonical

/-!
# Trees that programs can have

A tree is well formed when a text can have it: no block and no list of typed names is
empty, every name is a word that is not reserved, and every number is made of digits.

The nest of a tree is the number of constructs that are open at once in its canonical
text. An expression, a block and an `if` link are constructs. A left operand belongs to
the expression that it begins, and parentheses make an expression of their own.
-/

namespace StartEnd

/-- A name that can be written. -/
def Identifier.WellFormed (name : Identifier) : Prop := IsName name.value

instance (name : Identifier) : Decidable name.WellFormed :=
  inferInstanceAs (Decidable (IsName name.value))

namespace Expr

/-- Every name and every number of an expression can be written. -/
def WellFormed : Expr → Prop
  | binary left _ right => left.WellFormed ∧ right.WellFormed
  | symbol name => name.WellFormed
  | number digits => IsNumeral digits

instance decidableWellFormed : (expr : Expr) → Decidable expr.WellFormed
  | binary left _ right =>
    @instDecidableAnd _ _ (decidableWellFormed left) (decidableWellFormed right)
  | symbol name => inferInstanceAs (Decidable name.WellFormed)
  | number digits => inferInstanceAs (Decidable (IsNumeral digits))

/-- The constructs that are open at once in an expression. -/
def nest : Expr → Nat
  | binary left operator right =>
    max (left.nest + (left.needsParens operator false).toNat)
      (1 + right.nest + (right.needsParens operator true).toNat)
  | symbol _ | number _ => 1

end Expr

namespace Condition

/-- Both sides of a comparison can be written. -/
def WellFormed (condition : Condition) : Prop :=
  condition.left.WellFormed ∧ condition.right.WellFormed

instance (condition : Condition) : Decidable condition.WellFormed :=
  inferInstanceAs (Decidable (_ ∧ _))

/-- The constructs that are open at once in a comparison. -/
def nest (condition : Condition) : Nat := max condition.left.nest condition.right.nest

end Condition

/-- The target and the value of an assignment can be written. -/
def Assign.WellFormed (assign : Assign) : Prop :=
  assign.target.WellFormed ∧ assign.value.WellFormed

instance (assign : Assign) : Decidable assign.WellFormed := inferInstanceAs (Decidable (_ ∧ _))

namespace Step

/-- The names and the value of an advance can be written. -/
def WellFormed : Step → Prop
  | increment name | decrement name => name.WellFormed
  | assign assignment => assignment.WellFormed

instance : (step : Step) → Decidable step.WellFormed
  | increment name | decrement name => inferInstanceAs (Decidable name.WellFormed)
  | assign assignment => inferInstanceAs (Decidable assignment.WellFormed)

/-- The constructs that are open at once in an advance. -/
def nest : Step → Nat
  | increment _ | decrement _ => 0
  | assign assignment => assignment.value.nest

end Step

/-- There are typed names, and each of them can be written. -/
def ParametersWellFormed (parameters : List Parameter) : Prop :=
  parameters ≠ [] ∧ ∀ parameter ∈ parameters, parameter.name.WellFormed

instance (parameters : List Parameter) : Decidable (ParametersWellFormed parameters) :=
  inferInstanceAs (Decidable (_ ∧ _))

mutual

/-- Every part of a statement can be written. -/
def Stmt.WellFormed : Stmt → Prop
  | .assign assignment => assignment.WellFormed
  | .declaration _ assignment => assignment.WellFormed
  | .branch link => link.WellFormed
  | .repetition _ init condition step body =>
    init.WellFormed ∧ condition.WellFormed ∧ step.WellFormed ∧ body ≠ .nil ∧ body.WellFormed
  | .function _ name parameters body result =>
    name.WellFormed ∧ ParametersWellFormed parameters ∧ body ≠ .nil ∧ body.WellFormed ∧
      result.WellFormed
  | .call name arguments => name.WellFormed ∧ ParametersWellFormed arguments

/-- Every part of an `if` chain can be written. -/
def Branch.WellFormed : Branch → Prop
  | .last condition body => condition.WellFormed ∧ body ≠ .nil ∧ body.WellFormed
  | .orElse condition body next =>
    condition.WellFormed ∧ body ≠ .nil ∧ body.WellFormed ∧ next.WellFormed

/-- Every statement of a block can be written. -/
def Block.WellFormed : Block → Prop
  | .nil => True
  | .cons first rest => first.WellFormed ∧ rest.WellFormed

end

mutual

instance Stmt.decidableWellFormed : (statement : Stmt) → Decidable statement.WellFormed
  | .assign assignment => inferInstanceAs (Decidable assignment.WellFormed)
  | .declaration _ assignment => inferInstanceAs (Decidable assignment.WellFormed)
  | .branch link => Branch.decidableWellFormed link
  | .repetition _ _ _ _ body =>
    have := Block.decidableWellFormed body
    inferInstanceAs (Decidable (_ ∧ _))
  | .function _ _ _ body _ =>
    have := Block.decidableWellFormed body
    inferInstanceAs (Decidable (_ ∧ _))
  | .call _ _ => inferInstanceAs (Decidable (_ ∧ _))

instance Branch.decidableWellFormed : (link : Branch) → Decidable link.WellFormed
  | .last _ body =>
    have := Block.decidableWellFormed body
    inferInstanceAs (Decidable (_ ∧ _))
  | .orElse _ body next =>
    have := Block.decidableWellFormed body
    have := Branch.decidableWellFormed next
    inferInstanceAs (Decidable (_ ∧ _))

instance Block.decidableWellFormed : (block : Block) → Decidable block.WellFormed
  | .nil => inferInstanceAs (Decidable True)
  | .cons first rest =>
    have := Stmt.decidableWellFormed first
    have := Block.decidableWellFormed rest
    inferInstanceAs (Decidable (_ ∧ _))

end

/-- A program that a text can have. -/
def Program.WellFormed (program : Program) : Prop :=
  program.body ≠ .nil ∧ program.body.WellFormed

instance (program : Program) : Decidable program.WellFormed := inferInstanceAs (Decidable (_ ∧ _))

mutual

/-- The constructs that are open at once in a statement. -/
def Stmt.nest : Stmt → Nat
  | .assign assignment => assignment.value.nest
  | .declaration _ assignment => assignment.value.nest
  | .branch link => link.nest
  | .repetition _ init condition step body =>
    max (max init.value.nest condition.nest) (max step.nest (1 + body.innerNest))
  | .function _ _ _ body _ => 1 + body.innerNest
  | .call _ _ => 0

/-- The constructs that are open at once in an `if` chain. -/
def Branch.nest : Branch → Nat
  | .last condition body => 1 + max condition.nest (1 + body.innerNest)
  | .orElse condition body next => 1 + max (max condition.nest (1 + body.innerNest)) next.nest

/-- The constructs that are open at once inside a block. -/
def Block.innerNest : Block → Nat
  | .nil => 0
  | .cons first rest => max first.nest rest.innerNest

end

/-- The constructs that are open at once in a block, which is one itself. -/
def Block.nest (block : Block) : Nat := 1 + block.innerNest

/-- The constructs that are open at once in a program. -/
def Program.nest (program : Program) : Nat := program.body.nest

end StartEnd
