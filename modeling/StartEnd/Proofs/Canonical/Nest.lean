import StartEnd.Proofs.Concrete.Statement
import StartEnd.Proofs.Tree.WellFormed

/-!
# Trees of written programs

The tree of a program that was read from a text is well formed: its names and numbers
come from tokens, and no block and no list of typed names is empty.

Its nest is at most the number of constructs that the text has open at once. An operand
that needs parentheses stood between parentheses in the text, because without them it
would belong to another operator. Braces open no construct that a body does not open.
-/

namespace StartEnd

/-- A lexeme whose text, if its kind leaves it open, is that of a name or a number. -/
structure Lexeme.Lexical (lexeme : Lexeme) : Prop where
  name : lexeme.kind = .identifier → IsName lexeme.text
  numeral : lexeme.kind = .number → IsNumeral lexeme.text

/-- Marks that can be read. -/
def Legible (marks : List Mark) : Prop := ∀ mark ∈ marks, mark.toLexeme.Lexical

@[simp] theorem legible_cons {first : Mark} {rest : List Mark} :
    Legible (first :: rest) ↔ first.toLexeme.Lexical ∧ Legible rest := List.forall_mem_cons

@[simp] theorem legible_append {front back : List Mark} :
    Legible (front ++ back) ↔ Legible front ∧ Legible back := List.forall_mem_append

@[simp] theorem legible_raised {marks : List Mark} : Legible (raised marks) ↔ Legible marks := by
  simp [Legible, raised]

@[simp] theorem lexical_named {text : String} :
    (Mark.named text).toLexeme.Lexical ↔ IsName text := by
  constructor
  · intro lexical
    exact lexical.name rfl
  · intro isName
    exact ⟨fun _ => isName, nofun⟩

@[simp] theorem lexical_digits {text : String} :
    (Mark.digits text).toLexeme.Lexical ↔ IsNumeral text := by
  constructor
  · intro lexical
    exact lexical.numeral rfl
  · intro isNumeral
    exact ⟨nofun, fun _ => isNumeral⟩

/-- Tokens that were read from a text write down what can be read. -/
theorem Spells.legible {tokens : List Token} {marks : List Mark} (spelled : Spells tokens marks)
    (lexical : ∀ token ∈ tokens, token.Lexical) : Legible marks := by
  intro mark inside
  have member : mark.toLexeme ∈ tokens.map Token.lexeme := by
    rw [spelled]
    exact List.mem_map_of_mem inside
  obtain ⟨token, isToken, same⟩ := List.mem_map.mp member
  rw [← same]
  constructor
  · intro kind
    have isName : IsName token.value := (lexical token isToken).name kind
    simpa [Token.lexeme, Token.Kind.isOpen, show token.kind = .identifier from kind] using isName
  · intro kind
    have isNumeral : IsNumeral token.value := (lexical token isToken).numeral kind
    simpa [Token.lexeme, Token.Kind.isOpen, show token.kind = .number from kind] using isNumeral

namespace Concrete

/-- What stands between braces can be read if the whole can. -/
theorem legible_of_enclosed {braced : Bool} {marks : List Mark}
    (legible : Legible (enclosed braced marks)) : Legible marks := by
  cases braced with
  | true => exact (legible_append.mp (legible_cons.mp legible).2).1
  | false => exact legible

/-- Braces need no construct. -/
theorem peak_enclosed (braced : Bool) (marks : List Mark) :
    peak (enclosed braced marks) = peak marks := by
  cases braced with
  | true => simp [enclosed]
  | false => rfl

namespace Expr

/-- The tree of an expression that can be read is well formed. -/
theorem wellFormed_tree {expr : Expr} (legible : Legible expr.content) :
    expr.tree.WellFormed := by
  induction expr with
  | number digits => exact lexical_digits.mp (legible_cons.mp legible).1
  | symbol name => exact lexical_named.mp (legible_cons.mp legible).1
  | group inner inductionHypothesis =>
    simp only [content, legible_cons, legible_append, legible_raised] at legible
    exact inductionHypothesis legible.2.1
  | binary left operator right leftHypothesis rightHypothesis =>
    simp only [content, legible_cons, legible_append, legible_raised] at legible
    obtain ⟨readLeft, _, readRight⟩ := legible
    exact ⟨leftHypothesis readLeft, rightHypothesis readRight⟩

/-- Whether an expression stands between parentheses. -/
def isGroup : Expr → Bool
  | group _ => true
  | number _ | symbol _ | binary _ _ _ => false

/-- An operand that needs parentheses, although its operator holds it, has them. -/
theorem needsParens_le_isGroup {parent : Operator} {onRight : Bool} {expr : Expr}
    (held : ∀ child ∈ expr.root?, parent.holds onRight child) :
    (expr.tree.needsParens parent onRight).toNat ≤ expr.isGroup.toNat := by
  cases expr with
  | number digits => exact Nat.le_refl _
  | symbol name => exact Nat.le_refl _
  | group inner => exact Bool.toNat_le _
  | binary left operator right =>
    have holds : parent.holds onRight operator = true := held operator rfl
    have free : (tree (.binary left operator right)).needsParens parent onRight = false := by
      rw [tree, Operator.needsParens_binary, holds]
      rfl
    rw [free]
    exact Nat.zero_le _

/-- The nest of an expression is at most what its text needs, and less if the expression
stands between parentheses. The induction keeps the parentheses that an operand has in
reserve for those that it needs. -/
theorem nest_tree_le {expr : Expr} (fits : expr.Fits) :
    expr.tree.nest + expr.isGroup.toNat ≤ peak expr.marks := by
  rw [marks, peak_raised expr.content_ne_nil]
  induction expr with
  | number digits => exact Nat.le_refl _
  | symbol name => exact Nat.le_refl _
  | group inner inductionHypothesis =>
    have inside := inductionHypothesis fits
    have deeper : peak (raised inner.content) = peak inner.content + 1 :=
      peak_raised inner.content_ne_nil
    simp only [tree, isGroup, Bool.toNat_true, content, peak_cons, peak_append, deeper,
      Mark.fixed_level]
    omega
  | binary left operator right leftHypothesis rightHypothesis =>
    obtain ⟨leftFits, rightFits, leftHeld, rightHeld⟩ := fits
    have onLeft := leftHypothesis leftFits
    have onRight := rightHypothesis rightFits
    have leftParens := needsParens_le_isGroup leftHeld
    have rightParens := needsParens_le_isGroup rightHeld
    have deeper : peak (raised right.content) = peak right.content + 1 :=
      peak_raised right.content_ne_nil
    simp only [tree, StartEnd.Expr.nest, isGroup, Bool.toNat_false, content, peak_append,
      peak_cons, deeper, Mark.fixed_level]
    omega

/-- The nest of an expression is at most what its text needs. -/
theorem nest_le {expr : Expr} (fits : expr.Fits) : expr.tree.nest ≤ peak expr.marks :=
  Nat.le_trans (Nat.le_add_right _ _) (nest_tree_le fits)

end Expr

/-- The tree of a comparison that can be read is well formed. -/
theorem Condition.wellFormed_tree {condition : Condition} (legible : Legible condition.marks) :
    condition.tree.WellFormed := by
  simp only [marks, Expr.marks, legible_append, legible_cons, legible_raised] at legible
  obtain ⟨left, _, right⟩ := legible
  exact ⟨Expr.wellFormed_tree left, Expr.wellFormed_tree right⟩

/-- The nest of a comparison is at most what its text needs. -/
theorem Condition.nest_le {condition : Condition} (fits : condition.Fits) :
    condition.tree.nest ≤ peak condition.marks := by
  have left := Expr.nest_le fits.1
  have right := Expr.nest_le fits.2
  simp only [tree, StartEnd.Condition.nest, marks, peak_append, peak_cons]
  omega

/-- The tree of an assignment that can be read is well formed. -/
theorem Assign.wellFormed_tree {assign : Assign} (legible : Legible assign.marks) :
    assign.tree.WellFormed := by
  simp only [marks, Expr.marks, legible_cons, legible_raised] at legible
  obtain ⟨target, _, value⟩ := legible
  exact ⟨lexical_named.mp target, Expr.wellFormed_tree value⟩

/-- The nest of an assigned value is at most what the text of the assignment needs. -/
theorem Assign.nest_le {assign : Assign} (fits : assign.value.Fits) :
    assign.tree.value.nest ≤ peak assign.marks := by
  have value := Expr.nest_le fits
  simp only [marks, peak_cons]
  exact Nat.le_trans value (Nat.le_trans (Nat.le_max_right _ _) (Nat.le_max_right _ _))

/-- The tree of an advance that can be read is well formed. -/
theorem Step.wellFormed_tree {step : Step} (legible : Legible step.marks) :
    step.tree.WellFormed := by
  cases step with
  | increment name => exact lexical_named.mp (legible_cons.mp (legible_cons.mp legible).2).1
  | decrement name => exact lexical_named.mp (legible_cons.mp (legible_cons.mp legible).2).1
  | assign assignment => exact Assign.wellFormed_tree legible

/-- The nest of an advance is at most what its text needs. -/
theorem Step.nest_le {step : Step} (fits : step.Fits) : step.tree.nest ≤ peak step.marks := by
  cases step with
  | increment name => exact Nat.zero_le _
  | decrement name => exact Nat.zero_le _
  | assign assignment => exact Assign.nest_le fits

/-- Typed names that can be read are well formed. -/
theorem parametersWellFormed {parameters : List Parameter} (present : parameters ≠ [])
    (legible : Legible (parameterMarks parameters)) : ParametersWellFormed parameters := by
  match parameters with
  | [] => exact absurd rfl present
  | [only] =>
    simp only [parameterMarks, legible_cons, lexical_named] at legible
    exact ⟨present, List.forall_mem_singleton.mpr legible.2.1⟩
  | first :: second :: rest =>
    simp only [parameterMarks, legible_cons, lexical_named] at legible
    obtain ⟨_, isName, _, others⟩ := legible
    have further := parametersWellFormed (List.cons_ne_nil second rest) others
    exact ⟨present, List.forall_mem_cons.mpr ⟨isName, further.2⟩⟩

/-- A body with statements has a tree with statements. -/
theorem Body.tree_ne_nil {body : Body} (present : body ≠ .nil) : body.tree ≠ .nil := by
  cases body with
  | nil => exact absurd rfl present
  | cons first rest => simp [Body.tree]

mutual

/-- The tree of a statement that can be read is well formed. -/
theorem Stmt.wellFormed_tree (statement : Stmt) {next : Token.Kind}
    (placed : statement.Placed next) (legible : Legible statement.marks) :
    statement.tree.WellFormed := by
  match statement with
  | .assign assignment => exact Assign.wellFormed_tree legible
  | .declaration dataType assignment => exact Assign.wellFormed_tree (legible_cons.mp legible).2
  | .branch link => exact Link.wellFormed_tree link placed (legible_raised.mp legible)
  | .repetition dataType init condition step body =>
    obtain ⟨_, _, _, follows, present⟩ := placed
    simp only [Stmt.marks, legible_cons, legible_append, legible_raised] at legible
    obtain ⟨_, _, _, start, _, test, _, advance, _, _, inside, _⟩ := legible
    exact ⟨Assign.wellFormed_tree start, Condition.wellFormed_tree test,
      Step.wellFormed_tree advance, Body.tree_ne_nil present,
      Body.wellFormed_tree body follows inside⟩
  | .function returnType name parameters body result =>
    obtain ⟨listed, follows, present⟩ := placed
    simp only [Stmt.marks, legible_cons, legible_append, legible_raised, lexical_named]
      at legible
    obtain ⟨_, _, isName, _, named, _, _, inside, _, isResult, _⟩ := legible
    exact ⟨isName, parametersWellFormed listed named, Body.tree_ne_nil present,
      Body.wellFormed_tree body follows inside, isResult⟩
  | .call name arguments =>
    simp only [Stmt.marks, legible_cons, legible_append, lexical_named] at legible
    obtain ⟨isName, _, named, _⟩ := legible
    exact ⟨isName, parametersWellFormed placed named⟩

/-- The tree of an `if` chain that can be read is well formed. -/
theorem Link.wellFormed_tree (link : Link) {next : Token.Kind} (placed : link.Placed next)
    (legible : Legible link.content) : link.tree.WellFormed := by
  match link with
  | .last condition braced body =>
    obtain ⟨_, follows, present, _⟩ := placed
    simp only [Link.content, legible_cons, legible_append] at legible
    obtain ⟨_, _, test, _, bounded⟩ := legible
    have inside : Legible body.content := legible_raised.mp (legible_of_enclosed bounded)
    exact ⟨Condition.wellFormed_tree test, Body.tree_ne_nil present,
      Body.wellFormed_tree body follows inside⟩
  | .orElse condition braced body rest =>
    obtain ⟨_, follows, present, continued⟩ := placed
    simp only [Link.content, legible_cons, legible_append, legible_raised] at legible
    obtain ⟨_, _, test, _, bounded, _, behind⟩ := legible
    have inside : Legible body.content := legible_raised.mp (legible_of_enclosed bounded)
    exact ⟨Condition.wellFormed_tree test, Body.tree_ne_nil present,
      Body.wellFormed_tree body follows inside, Link.wellFormed_tree rest continued behind⟩

/-- The tree of a body that can be read is well formed. -/
theorem Body.wellFormed_tree (body : Body) {next : Token.Kind} (follows : body.Follow next)
    (legible : Legible body.content) : body.tree.WellFormed := by
  match body with
  | .nil => trivial
  | .cons first rest =>
    obtain ⟨front, back⟩ := legible_append.mp legible
    exact ⟨Stmt.wellFormed_tree first follows.1 front, Body.wellFormed_tree rest follows.2 back⟩

end

/-- A body is a construct that needs one construct more than what is inside. -/
theorem Body.nest_le_raised {body : Body} (present : body ≠ .nil)
    (inside : body.tree.innerNest ≤ peak body.content) :
    1 + body.tree.innerNest ≤ peak (raised body.content) := by
  rw [peak_raised (Body.content_ne_nil present), Nat.add_comm]
  exact Nat.add_le_add_right inside 1

mutual

/-- The nest of a statement is at most what its text needs. -/
theorem Stmt.nest_le (statement : Stmt) {next : Token.Kind} (placed : statement.Placed next) :
    statement.tree.nest ≤ peak statement.marks := by
  match statement with
  | .assign assignment => exact Assign.nest_le placed.1
  | .declaration dataType assignment =>
    exact Nat.le_trans (Assign.nest_le placed.1) (Nat.le_max_right _ _)
  | .branch link => exact Link.nest_le link placed
  | .repetition dataType init condition step body =>
    obtain ⟨initFits, conditionFits, stepFits, follows, present⟩ := placed
    have start := Assign.nest_le initFits
    have test := Condition.nest_le conditionFits
    have advance := Step.nest_le stepFits
    have inside := Body.nest_le_raised present (Body.nest_le body follows)
    simp only [Stmt.tree, StartEnd.Stmt.nest, Stmt.marks, peak_cons, peak_append, peak_nil,
      Mark.fixed_level, Nat.zero_max, Nat.max_zero]
    omega
  | .function returnType name parameters body result =>
    obtain ⟨_, follows, present⟩ := placed
    have inside := Body.nest_le_raised present (Body.nest_le body follows)
    simp only [Stmt.tree, StartEnd.Stmt.nest, Stmt.marks, peak_cons, peak_append, peak_nil,
      Mark.fixed_level, Mark.named_level, Nat.zero_max, Nat.max_zero]
    omega
  | .call name arguments => exact Nat.zero_le _

/-- The nest of an `if` chain is at most what its text needs. -/
theorem Link.nest_le (link : Link) {next : Token.Kind} (placed : link.Placed next) :
    link.tree.nest ≤ peak (raised link.content) := by
  rw [peak_raised link.content_ne_nil]
  match link with
  | .last condition braced body =>
    obtain ⟨fits, follows, present, _⟩ := placed
    have test := Condition.nest_le fits
    have inside := Body.nest_le_raised present (Body.nest_le body follows)
    simp only [Link.tree, Branch.nest, Link.content, peak_cons, peak_append, peak_enclosed,
      Mark.fixed_level, Nat.zero_max]
    omega
  | .orElse condition braced body rest =>
    obtain ⟨fits, follows, present, continued⟩ := placed
    have test := Condition.nest_le fits
    have inside := Body.nest_le_raised present (Body.nest_le body follows)
    have behind := Link.nest_le rest continued
    simp only [Link.tree, Branch.nest, Link.content, peak_cons, peak_append, peak_enclosed,
      Mark.fixed_level, Nat.zero_max]
    omega

/-- The nest inside a body is at most what its content needs. -/
theorem Body.nest_le (body : Body) {next : Token.Kind} (follows : body.Follow next) :
    body.tree.innerNest ≤ peak body.content := by
  match body with
  | .nil => exact Nat.zero_le _
  | .cons first rest =>
    have front := Stmt.nest_le first follows.1
    have back := Body.nest_le rest follows.2
    simp only [Body.tree, Block.innerNest, Body.content, peak_append]
    omega

end

end Concrete

end StartEnd
