import StartEnd.Proofs.Concrete.Greedy
import StartEnd.Proofs.Reading.Program
import StartEnd.Proofs.Tree.WellFormed

/-!
# The concrete form of a tree

The canonical text of a tree writes down one concrete form of it: parentheses stand
around exactly those operands that need them, and braces around the body of every `if`.
A parse finds this form, it has the tree that it was made from, and it needs as many
constructs as the nest of the tree.
-/

namespace StartEnd

/-- An expression between parentheses, if they are needed. -/
def Concrete.Expr.grouped (needed : Bool) (expr : Concrete.Expr) : Concrete.Expr :=
  if needed then .group expr else expr

namespace Expr

/-- The expression with the parentheses that it needs. -/
def concrete : Expr → Concrete.Expr
  | binary left operator right =>
    .binary (left.concrete.grouped (left.needsParens operator false)) operator
      (right.concrete.grouped (right.needsParens operator true))
  | symbol name => .symbol name
  | number digits => .number digits

/-- Parentheses do not change a tree. -/
theorem tree_grouped (needed : Bool) (expr : Concrete.Expr) :
    (expr.grouped needed).tree = expr.tree := by
  cases needed <;> rfl

/-- Parentheses around what fits fit. -/
theorem fits_grouped {needed : Bool} {expr : Concrete.Expr} (fits : expr.Fits) :
    (expr.grouped needed).Fits := by
  cases needed <;> exact fits

/-- The concrete form of an expression has its tree. -/
theorem tree_concrete (expr : Expr) : expr.concrete.tree = expr := by
  induction expr with
  | binary left operator right leftHypothesis rightHypothesis =>
    simp only [concrete, Concrete.Expr.tree, tree_grouped, leftHypothesis, rightHypothesis]
  | symbol name => rfl
  | number digits => rfl

/-- An operand with the parentheses that it needs is held by its operator. -/
theorem holds_grouped {operator : Operator} {onRight : Bool} {expr : Expr} :
    ∀ child ∈ (expr.concrete.grouped (expr.needsParens operator onRight)).root?,
      operator.holds onRight child := by
  intro child isRoot
  cases needed : expr.needsParens operator onRight with
  | true =>
    rw [needed] at isRoot
    exact absurd isRoot (by simp [Concrete.Expr.grouped, Concrete.Expr.root?])
  | false =>
    rw [needed] at isRoot
    cases expr with
    | binary left inner right =>
      obtain rfl : inner = child := Option.some.inj isRoot
      rw [Operator.needsParens_binary] at needed
      simpa using needed
    | symbol name =>
      exact absurd isRoot (by simp [Concrete.Expr.grouped, concrete, Concrete.Expr.root?])
    | number digits =>
      exact absurd isRoot (by simp [Concrete.Expr.grouped, concrete, Concrete.Expr.root?])

/-- The concrete form of an expression fits. -/
theorem fits_concrete (expr : Expr) : expr.concrete.Fits := by
  induction expr with
  | binary left operator right leftHypothesis rightHypothesis =>
    exact ⟨fits_grouped leftHypothesis, fits_grouped rightHypothesis, holds_grouped,
      holds_grouped⟩
  | symbol name => trivial
  | number digits => trivial

/-- Parentheses need one construct more. -/
theorem peak_grouped (needed : Bool) (expr : Concrete.Expr) :
    peak (expr.grouped needed).content = peak expr.content + needed.toNat := by
  cases needed with
  | false => rfl
  | true =>
    have inner : peak (raised expr.content) = peak expr.content + 1 :=
      peak_raised expr.content_ne_nil
    simp [Concrete.Expr.grouped, Concrete.Expr.content, inner]

/-- The concrete form of an expression needs the nest of the expression. -/
theorem peak_concrete (expr : Expr) : peak expr.concrete.marks = expr.nest := by
  have content : peak expr.concrete.content + 1 = expr.nest := by
    induction expr with
    | binary left operator right leftHypothesis rightHypothesis =>
      have deeper := peak_raised
        (right.concrete.grouped (right.needsParens operator true)).content_ne_nil
      simp only [concrete, Concrete.Expr.content, peak_append, peak_cons, deeper, peak_grouped,
        Mark.fixed_level, nest]
      omega
    | symbol name => rfl
    | number digits => rfl
  rw [← content]
  exact peak_raised expr.concrete.content_ne_nil

end Expr

/-- The comparison of the concrete forms of both sides. -/
def Condition.concrete (condition : Condition) : Concrete.Condition :=
  ⟨condition.left.concrete, condition.operator, condition.right.concrete⟩

/-- The assignment of the concrete form of its value. -/
def Assign.concrete (assign : Assign) : Concrete.Assign := ⟨assign.target, assign.value.concrete⟩

/-- The advance with the concrete form of its value. -/
def Step.concrete : Step → Concrete.Step
  | .increment name => .increment name
  | .decrement name => .decrement name
  | .assign assignment => .assign assignment.concrete

mutual

/-- The statement with the parentheses it needs and with braces everywhere. -/
def Stmt.concrete : Stmt → Concrete.Stmt
  | .assign assignment => .assign assignment.concrete
  | .declaration dataType assignment => .declaration dataType assignment.concrete
  | .branch link => .branch link.concrete
  | .repetition dataType init condition step body =>
    .repetition dataType init.concrete condition.concrete step.concrete body.concrete
  | .function returnType name parameters body result =>
    .function returnType name parameters body.concrete result
  | .call name arguments => .call name arguments

/-- The link with the parentheses it needs and with braces everywhere. -/
def Branch.concrete : Branch → Concrete.Link
  | .last condition body => .last condition.concrete true body.concrete
  | .orElse condition body next =>
    .orElse condition.concrete true body.concrete next.concrete

/-- The block with the parentheses it needs and with braces everywhere. -/
def Block.concrete : Block → Concrete.Body
  | .nil => .nil
  | .cons first rest => .cons first.concrete rest.concrete

end

/-- The concrete form of a comparison has its tree. -/
theorem Condition.tree_concrete (condition : Condition) : condition.concrete.tree = condition := by
  simp [Condition.concrete, Concrete.Condition.tree, Expr.tree_concrete]

/-- The concrete form of an assignment has its tree. -/
theorem Assign.tree_concrete (assign : Assign) : assign.concrete.tree = assign := by
  simp [Assign.concrete, Concrete.Assign.tree, Expr.tree_concrete]

/-- The concrete form of an advance has its tree. -/
theorem Step.tree_concrete (step : Step) : step.concrete.tree = step := by
  cases step <;> simp [Step.concrete, Concrete.Step.tree, Assign.tree_concrete]

mutual

/-- The concrete form of a statement has its tree. -/
theorem Stmt.tree_concrete (statement : Stmt) : statement.concrete.tree = statement := by
  match statement with
  | .assign assignment => simp [Stmt.concrete, Concrete.Stmt.tree, Assign.tree_concrete]
  | .declaration dataType assignment =>
    simp [Stmt.concrete, Concrete.Stmt.tree, Assign.tree_concrete]
  | .branch link => simp [Stmt.concrete, Concrete.Stmt.tree, Branch.tree_concrete link]
  | .repetition dataType init condition step body =>
    simp [Stmt.concrete, Concrete.Stmt.tree, Assign.tree_concrete, Condition.tree_concrete,
      Step.tree_concrete, Block.tree_concrete body]
  | .function returnType name parameters body result =>
    simp [Stmt.concrete, Concrete.Stmt.tree, Block.tree_concrete body]
  | .call name arguments => rfl

/-- The concrete form of an `if` chain has its tree. -/
theorem Branch.tree_concrete (link : Branch) : link.concrete.tree = link := by
  match link with
  | .last condition body =>
    simp [Branch.concrete, Concrete.Link.tree, Condition.tree_concrete,
      Block.tree_concrete body]
  | .orElse condition body next =>
    simp [Branch.concrete, Concrete.Link.tree, Condition.tree_concrete,
      Block.tree_concrete body, Branch.tree_concrete next]

/-- The concrete form of a block has its tree. -/
theorem Block.tree_concrete (block : Block) : block.concrete.tree = block := by
  match block with
  | .nil => rfl
  | .cons first rest =>
    simp [Block.concrete, Concrete.Body.tree, Stmt.tree_concrete first, Block.tree_concrete rest]

end

/-- A block with statements has a concrete form with statements. -/
theorem Block.concrete_ne_nil {block : Block} (present : block ≠ .nil) :
    block.concrete ≠ .nil := by
  cases block with
  | nil => exact absurd rfl present
  | cons first rest => simp [Block.concrete]

/-- The concrete form of a comparison fits. -/
theorem Condition.fits_concrete (condition : Condition) : condition.concrete.Fits :=
  ⟨condition.left.fits_concrete, condition.right.fits_concrete⟩

/-- The concrete form of an advance fits. -/
theorem Step.fits_concrete (step : Step) : step.concrete.Fits := by
  cases step with
  | increment name => trivial
  | decrement name => trivial
  | assign assignment => exact assignment.value.fits_concrete

mutual

/-- The concrete form of a statement is found before everything but operators and
`else`. -/
theorem Stmt.placed_concrete (statement : Stmt) (wellFormed : statement.WellFormed)
    {next : Token.Kind} (settles : Parse.Settles .lowest next) (noElse : next ≠ .elseWord) :
    statement.concrete.Placed next := by
  match statement with
  | .assign assignment => exact ⟨assignment.value.fits_concrete, settles⟩
  | .declaration dataType assignment => exact ⟨assignment.value.fits_concrete, settles⟩
  | .branch link => exact Branch.placed_concrete link wellFormed noElse
  | .repetition dataType init condition step body =>
    obtain ⟨_, _, _, present, bodyFormed⟩ := wellFormed
    exact ⟨init.value.fits_concrete, condition.fits_concrete, step.fits_concrete,
      Block.follow_concrete body bodyFormed (by decide), Block.concrete_ne_nil present⟩
  | .function returnType name parameters body result =>
    obtain ⟨_, listed, present, bodyFormed, _⟩ := wellFormed
    exact ⟨listed.1, Block.follow_concrete body bodyFormed (by decide),
      Block.concrete_ne_nil present⟩
  | .call name arguments => exact wellFormed.2.1

/-- The concrete form of an `if` chain is found before everything but `else`. -/
theorem Branch.placed_concrete (link : Branch) (wellFormed : link.WellFormed)
    {next : Token.Kind} (noElse : next ≠ .elseWord) : link.concrete.Placed next := by
  match link with
  | .last condition body =>
    obtain ⟨_, present, bodyFormed⟩ := wellFormed
    have follows : body.concrete.Follow .closeCurly :=
      Block.follow_concrete body bodyFormed (by decide)
    exact ⟨condition.fits_concrete, follows, Block.concrete_ne_nil present, noElse⟩
  | .orElse condition body rest =>
    obtain ⟨_, present, bodyFormed, restFormed⟩ := wellFormed
    have follows : body.concrete.Follow .closeCurly :=
      Block.follow_concrete body bodyFormed (by decide)
    exact ⟨condition.fits_concrete, follows, Block.concrete_ne_nil present,
      Branch.placed_concrete rest restFormed noElse⟩

/-- The concrete form of a block is found before what continues no statement. -/
theorem Block.follow_concrete (block : Block) (wellFormed : block.WellFormed)
    {next : Token.Kind} (neutral : Concrete.Neutral next) : block.concrete.Follow next := by
  match block with
  | .nil => exact neutral.2.1
  | .cons first .nil =>
    exact ⟨Stmt.placed_concrete first wellFormed.1 neutral.1 neutral.2.2, neutral.2.1⟩
  | .cons first (.cons second others) =>
    have begins : Parse.BeginsStatement second.concrete.firstKind :=
      second.concrete.beginsStatement_firstKind
    have placed : first.concrete.Placed second.concrete.firstKind :=
      Stmt.placed_concrete first wellFormed.1 (Concrete.settles_of_beginsStatement begins)
        (Concrete.ne_else_of_beginsStatement begins)
    exact ⟨placed, Block.follow_concrete (.cons second others) wellFormed.2 neutral⟩

end

/-- Typed names stand outside all constructs. -/
theorem peak_parameterMarks (parameters : List Parameter) :
    peak (Concrete.parameterMarks parameters) = 0 := by
  match parameters with
  | [] => rfl
  | [only] => rfl
  | first :: second :: rest =>
    have further := peak_parameterMarks (second :: rest)
    simp [Concrete.parameterMarks, further]

/-- The concrete form of a comparison needs the nest of the comparison. -/
theorem Condition.peak_concrete (condition : Condition) :
    peak condition.concrete.marks = condition.nest := by
  simp [Condition.concrete, Concrete.Condition.marks, Expr.peak_concrete, Condition.nest]

/-- The concrete form of an assignment needs the nest of its value. -/
theorem Assign.peak_concrete (assign : Assign) :
    peak assign.concrete.marks = assign.value.nest := by
  simp [Assign.concrete, Concrete.Assign.marks, Expr.peak_concrete]

/-- The concrete form of an advance needs the nest of the advance. -/
theorem Step.peak_concrete (step : Step) : peak step.concrete.marks = step.nest := by
  cases step with
  | increment name => rfl
  | decrement name => rfl
  | assign assignment => exact assignment.peak_concrete

/-- A block is a construct itself. -/
theorem Block.peak_raised_concrete {block : Block} (present : block ≠ .nil)
    (inside : peak block.concrete.content = block.innerNest) :
    peak (raised block.concrete.content) = 1 + block.innerNest := by
  rw [peak_raised (Concrete.Body.content_ne_nil (Block.concrete_ne_nil present)), inside,
    Nat.add_comm]

mutual

/-- The concrete form of a statement needs the nest of the statement. -/
theorem Stmt.peak_concrete (statement : Stmt) (wellFormed : statement.WellFormed) :
    peak statement.concrete.marks = statement.nest := by
  match statement with
  | .assign assignment => exact assignment.peak_concrete
  | .declaration dataType assignment =>
    simp [Stmt.concrete, Concrete.Stmt.marks, Assign.peak_concrete, Stmt.nest]
  | .branch link => exact Branch.peak_concrete link wellFormed
  | .repetition dataType init condition step body =>
    obtain ⟨_, _, _, present, bodyFormed⟩ := wellFormed
    have inner := Block.peak_raised_concrete present (Block.peak_concrete body bodyFormed)
    simp only [Stmt.concrete, Concrete.Stmt.marks, peak_cons, peak_append, peak_nil,
      Mark.fixed_level, Assign.peak_concrete, Condition.peak_concrete, Step.peak_concrete, inner,
      Stmt.nest, Nat.zero_max, Nat.max_zero, Nat.max_assoc]
  | .function returnType name parameters body result =>
    obtain ⟨_, _, present, bodyFormed, _⟩ := wellFormed
    have inner := Block.peak_raised_concrete present (Block.peak_concrete body bodyFormed)
    simp only [Stmt.concrete, Concrete.Stmt.marks, peak_cons, peak_append, peak_nil,
      Mark.fixed_level, Mark.named_level, peak_parameterMarks, inner, Stmt.nest, Nat.zero_max,
      Nat.max_zero]
  | .call name arguments =>
    simp [Stmt.concrete, Concrete.Stmt.marks, peak_parameterMarks, Stmt.nest]

/-- The concrete form of an `if` chain needs the nest of the chain. -/
theorem Branch.peak_concrete (link : Branch) (wellFormed : link.WellFormed) :
    peak (raised link.concrete.content) = link.nest := by
  rw [peak_raised link.concrete.content_ne_nil]
  match link with
  | .last condition body =>
    obtain ⟨_, present, bodyFormed⟩ := wellFormed
    have inner := Block.peak_raised_concrete present (Block.peak_concrete body bodyFormed)
    simp only [Branch.concrete, Concrete.Link.content, Concrete.enclosed, ↓reduceIte, peak_cons,
      peak_append, peak_nil, Mark.fixed_level, Condition.peak_concrete, inner, Branch.nest,
      Nat.zero_max, Nat.max_zero, Nat.add_comm 1]
  | .orElse condition body next =>
    obtain ⟨_, present, bodyFormed, nextFormed⟩ := wellFormed
    have inner := Block.peak_raised_concrete present (Block.peak_concrete body bodyFormed)
    simp only [Branch.concrete, Concrete.Link.content, Concrete.enclosed, ↓reduceIte, peak_cons,
      peak_append, peak_nil, Mark.fixed_level, Condition.peak_concrete, inner,
      Branch.peak_concrete next nextFormed, Branch.nest, Nat.zero_max, Nat.max_zero,
      Nat.max_assoc, Nat.add_comm 1]

/-- The content of the concrete form of a block needs the nest inside the block. -/
theorem Block.peak_concrete (block : Block) (wellFormed : block.WellFormed) :
    peak block.concrete.content = block.innerNest := by
  match block with
  | .nil => rfl
  | .cons first rest =>
    simp only [Block.concrete, Concrete.Body.content, peak_append,
      Stmt.peak_concrete first wellFormed.1, Block.peak_concrete rest wellFormed.2,
      Block.innerNest]

end

/-- The marks of the concrete form of a program. -/
def Program.marks (program : Program) : List Mark := program.body.concrete.programMarks

/-- The concrete form of a program needs the nest of the program. -/
theorem Program.peak_marks {program : Program} (wellFormed : program.WellFormed) :
    peak program.marks = program.nest := by
  have inner := Block.peak_raised_concrete wellFormed.1
    (program.body.peak_concrete wellFormed.2)
  simp [Program.marks, Concrete.Body.programMarks, inner, Program.nest, Block.nest]

/-- The concrete form of a program is found. -/
theorem Program.placed_concrete {program : Program} (wellFormed : program.WellFormed) :
    program.body.concrete.Placed .endWord :=
  ⟨program.body.follow_concrete wellFormed.2 (by decide),
    Block.concrete_ne_nil wellFormed.1⟩

end StartEnd
