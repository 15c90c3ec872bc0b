import StartEnd.Parse.Expression
import StartEnd.Proofs.Reading.Mark
import StartEnd.Tree.Canonical

/-!
# Expressions as they are written

A concrete expression keeps the parentheses that a tree forgets. It fits when every
operand without parentheses is held by its operator: it binds more tightly, or equally
tightly on the side to which the operator groups. Every text of an expression has one
concrete expression that fits, and that is the one a parse finds.

The content of an expression is its marks inside the construct that it is. A left
operand belongs to the same construct, a right operand and an expression between
parentheses are constructs of their own.
-/

namespace StartEnd

namespace Operator

/-- How tightly an operator holds its operands. -/
def power : Operator → BindingPower
  | add | sub => .additive
  | mul | div => .multiplicative
  | pow => .exponential

/-- The place in which the right operand of an operator stands. -/
def rightPlace : Operator → BindingPower
  | add | sub => .additive
  | mul | div | pow => .multiplicative

/-- Whether an operator holds another one as the root of an operand on the given side
without parentheses. -/
def holds (parent : Operator) (onRight : Bool) (child : Operator) : Bool :=
  parent.precedence < child.precedence ||
    (parent.precedence = child.precedence && onRight = parent.groupsRight)

/-- An operand needs parentheses exactly when it is not held. -/
theorem needsParens_binary (parent child : Operator) (onRight : Bool) (left right : Expr) :
    (Expr.binary left child right).needsParens parent onRight = !parent.holds onRight child := by
  cases parent <;> cases child <;> cases onRight <;> rfl

end Operator

namespace Parse

/-- The productions that lead from one layer up to another. -/
def promotions : Layer → Layer → List Rule
  | .factor, .term => [.termFactor]
  | .factor, .expr => [.termFactor, .exprTerm]
  | .term, .expr => [.exprTerm]
  | .factor, .factor | .term, .factor | .term, .term | .expr, _ => []

/-- The tables hold every operator with its binding power. -/
theorem standard_power_operator (operator : Operator) :
    Tables.standard.power operator.kind = some operator.power := by
  cases operator <;> rfl

/-- The way in which an operator and its right operand are parsed. -/
def handlerOf : Operator → OperatorHandler
  | .add | .sub | .mul | .div => .binary
  | .pow => .exponent

/-- The tables hold every operator with its handler. -/
theorem standard_operator_operator (operator : Operator) :
    Tables.standard.operator operator.kind = some (handlerOf operator) := by
  cases operator <;> rfl

/-- The tables hold a binding power for operators only. -/
theorem exists_operator_of_power {kind : Token.Kind} {power : BindingPower}
    (found : Tables.standard.power kind = some power) :
    ∃ operator : Operator, kind = operator.kind ∧ power = operator.power := by
  have listed : ∀ kind : Token.Kind, Tables.standard.power kind = none ∨
      ∃ operator ∈ Operator.ofKind? kind, Tables.standard.power kind = some operator.power := by
    intro kind
    cases kind <;> decide
  rcases listed kind with missing | ⟨operator, isKind, same⟩
  · rw [missing] at found
    exact absurd found (by simp)
  · rw [same] at found
    exact ⟨operator, (Operator.ofKind?_eq_some_iff _ _).mp isKind, (Option.some.inj found).symm⟩

/-- A kind that ends an expression in the given place, because it is no operator that
binds more tightly. -/
def Settles (place : BindingPower) (kind : Token.Kind) : Prop :=
  (Tables.standard.power kind).filter (fun power => place.strength < power.strength) = none

instance (place : BindingPower) (kind : Token.Kind) : Decidable (Settles place kind) :=
  inferInstanceAs (Decidable (_ = _))

/-- What ends an expression in one place ends it in every place that demands more. -/
theorem Settles.mono {lower higher : BindingPower} {kind : Token.Kind}
    (settles : Settles lower kind) (above : lower.strength ≤ higher.strength) :
    Settles higher kind := by
  unfold Settles at settles ⊢
  cases found : Tables.standard.power kind with
  | none => rfl
  | some power =>
    simp only [found, Option.filter_eq_none_iff, Option.some.injEq, decide_eq_true_eq,
      forall_eq'] at settles ⊢
    omega

end Parse

namespace Concrete

/-- An expression with its parentheses. -/
inductive Expr where
  | number (digits : String)
  | symbol (name : Identifier)
  | group (inner : Expr)
  | binary (left : Expr) (operator : Operator) (right : Expr)
deriving DecidableEq

namespace Expr

/-- The expression without its parentheses. -/
def tree : Expr → StartEnd.Expr
  | number digits => .number digits
  | symbol name => .symbol name
  | group inner => inner.tree
  | binary left operator right => .binary left.tree operator right.tree

/-- The operator that is applied last, unless it stands between parentheses. -/
def root? : Expr → Option Operator
  | number _ | symbol _ | group _ => none
  | binary _ operator _ => some operator

/-- Every operand without parentheses is held by its operator. -/
def Fits : Expr → Prop
  | number _ | symbol _ => True
  | group inner => inner.Fits
  | binary left operator right =>
    left.Fits ∧ right.Fits ∧ (∀ child ∈ left.root?, operator.holds false child) ∧
      ∀ child ∈ right.root?, operator.holds true child

/-- An expression can stand in a place when its root binds more tightly. -/
def SitsAt (place : BindingPower) (expr : Expr) : Prop :=
  ∀ operator ∈ expr.root?, place.strength < operator.power.strength

/-- The marks of an expression inside the construct that it is. -/
def content : Expr → List Mark
  | number digits => [.digits digits]
  | symbol name => [.named name.value]
  | group inner => .fixed .openParen :: (raised inner.content ++ [.fixed .closeParen])
  | binary left operator right =>
    left.content ++ .fixed operator.kind :: raised right.content

/-- The marks of an expression. -/
def marks (expr : Expr) : List Mark := raised expr.content

/-- The number of operators that belong to the construct of an expression. -/
def spine : Expr → Nat
  | number _ | symbol _ | group _ => 0
  | binary left _ _ => left.spine + 1

/-- The layer of the grammar that an expression reaches by its operators. -/
def layer (expr : Expr) : Parse.Layer :=
  expr.root?.elim .factor fun operator => .ofOperator operator.power

/-- The productions of an expression up to its own layer. -/
def rules : Expr → List Rule
  | number _ => [.digit, .expDigit, .factorExp]
  | symbol _ => [.id, .expId, .factorExp]
  | group inner =>
    inner.rules ++ Parse.promotions inner.layer (.ofPlace .lowest) ++ [.expParen, .factorExp]
  | binary left operator right =>
    left.rules ++ (Parse.promotions left.layer (.ofOperator operator.power) ++
      (right.rules ++ Parse.promotions right.layer (.ofPlace operator.rightPlace) ++
        [Parse.operatorRule operator]))

/-- The productions of an expression up to the layer of its place. -/
def rulesAt (place : BindingPower) (expr : Expr) : List Rule :=
  expr.rules ++ Parse.promotions expr.layer (.ofPlace place)

/-- An expression is not empty. -/
theorem content_ne_nil (expr : Expr) : expr.content ≠ [] := by
  cases expr <;> simp [content]

/-- Every operator has a mark. -/
theorem spine_le_length (expr : Expr) : expr.spine ≤ expr.content.length := by
  induction expr with
  | number digits => exact Nat.zero_le _
  | symbol name => exact Nat.zero_le _
  | group inner inductionHypothesis => exact Nat.zero_le _
  | binary left operator right leftHypothesis rightHypothesis =>
    simp only [spine, content, List.length_append, List.length_cons]
    omega

/-- Every expression can stand in the place that demands nothing. -/
theorem sitsAt_lowest (expr : Expr) : expr.SitsAt .lowest := by
  intro operator _
  cases operator <;> decide

/-- A left operand that its operator holds can stand wherever the operator can. -/
theorem sitsAt_left {place : BindingPower} {operator : Operator} {left : Expr}
    (above : place.strength < operator.power.strength)
    (held : ∀ child ∈ left.root?, operator.holds false child) : left.SitsAt place := by
  intro child isRoot
  have holds : operator.holds false child = true := held child isRoot
  apply Nat.lt_of_lt_of_le above
  revert holds
  cases operator <;> cases child <;> decide

/-- A right operand that its operator holds can stand in the operator's right place. -/
theorem sitsAt_rightPlace {operator : Operator} {right : Expr}
    (held : ∀ child ∈ right.root?, operator.holds true child) :
    right.SitsAt operator.rightPlace := by
  intro child isRoot
  have holds : operator.holds true child = true := held child isRoot
  revert holds
  cases operator <;> cases child <;> decide

/-- An operator that holds its left operand ends the right operand of that operand. -/
theorem settles_rightPlace_left {operator : Operator} {left : Expr}
    (held : ∀ child ∈ left.root?, operator.holds false child) :
    ∀ child ∈ left.root?, Parse.Settles child.rightPlace operator.kind := by
  intro child isRoot
  have holds : operator.holds false child = true := held child isRoot
  revert holds
  cases operator <;> cases child <;> decide

/-- What ends an expression in its place ends its right operand. -/
theorem settles_rightPlace {place : BindingPower} {expr : Expr} {kind : Token.Kind}
    (sits : expr.SitsAt place) (settles : Parse.Settles place kind) :
    ∀ child ∈ expr.root?, Parse.Settles child.rightPlace kind := by
  intro child isRoot
  have above : place.strength < child.power.strength := sits child isRoot
  apply settles.mono
  revert above
  cases place <;> cases child <;> decide

end Expr

/-- A comparison of concrete expressions. -/
structure Condition where
  left : Expr
  operator : Comparison
  right : Expr
deriving DecidableEq

namespace Condition

/-- The comparison without the parentheses of its sides. -/
def tree (condition : Condition) : StartEnd.Condition :=
  ⟨condition.left.tree, condition.operator, condition.right.tree⟩

/-- Both sides fit. -/
def Fits (condition : Condition) : Prop := condition.left.Fits ∧ condition.right.Fits

/-- The marks of a comparison. -/
def marks (condition : Condition) : List Mark :=
  condition.left.marks ++ .fixed condition.operator.kind :: condition.right.marks

/-- The productions of a comparison. -/
def rules (condition : Condition) : List Rule :=
  condition.left.rulesAt .lowest ++ Parse.comparisonRule condition.operator ::
    (condition.right.rulesAt .lowest ++ [.condition])

end Condition

end Concrete

end StartEnd
