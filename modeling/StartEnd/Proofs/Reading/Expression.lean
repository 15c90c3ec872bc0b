import StartEnd.Proofs.Concrete.Expression
import StartEnd.Proofs.Reading.Judgement

/-!
# Reading expressions

The parser of expressions reads every concrete expression that fits, in every place in
which it can stand. A left operand is read by the same call as the expression itself:
first its leaf, then the operators from the innermost one outwards. The statement about
a call is therefore about what the loop over operators does behind the expression, and
it follows the left operands down to the leaf.
-/

namespace StartEnd.Parse

open Concrete (Expr)

/-- A parser of expressions reads the expressions that fit and have room for their
operators. -/
def ReadsExprs (depth steps : Nat) (parser : ExprParser) : Prop :=
  ∀ (place : BindingPower) (expr : Concrete.Expr), expr.Fits → expr.SitsAt place →
    expr.content.length ≤ steps →
    Reads depth (parser place) expr.marks (Settles place) (· = expr.tree) (expr.rulesAt place)

variable {α : Type} {depth steps : Nat} {marks : List Mark} {next : Token.Kind → Prop}
  {good : α → Prop} {rules : List Rule} {inner : ExprParser}

/-- Steps between layers are logged and read nothing. -/
theorem Reads.promote {low high : Layer} {second : Unit → Parse α}
    (reads : Reads depth (second ()) marks next good rules) :
    Reads depth (Parse.promote low high >>= second) marks next good
      (promotions low high ++ rules) := by
  have single (rule : Rule) :
      Reads depth (Parse.reduce rule >>= second) marks next good (rule :: rules) :=
    Reads.reduce reads
  cases low <;> cases high
  case factor.term => exact single _
  case term.expr => exact single _
  case factor.expr =>
    simp only [Parse.promote, bind_assoc]
    exact Reads.reduce (Reads.reduce reads)
  all_goals
    simp only [Parse.promote, pure_bind, promotions, List.nil_append]
    exact reads

/-- A number is read as a leaf. -/
theorem primary_reads_number (digits : String) :
    Reads depth primary [.digits digits] next (· = .number digits) [.digit, .expDigit] := by
  apply Reads.advance rfl
  intro token spelled
  have kind : token.kind = .number := congrArg Lexeme.kind spelled
  have value : token.value = digits := Token.value_of_lexeme rfl spelled
  simp only [kind]
  exact Reads.reduce (Reads.reduce (Reads.pure (by rw [value])))

/-- A name is read as a leaf. -/
theorem primary_reads_symbol (name : Identifier) :
    Reads depth primary [.named name.value] next (· = .symbol name) [.id, .expId] := by
  apply Reads.advance rfl
  intro token spelled
  have kind : token.kind = .identifier := congrArg Lexeme.kind spelled
  have value : token.value = name.value := Token.value_of_lexeme rfl spelled
  simp only [kind]
  exact Reads.reduce (Reads.reduce (Reads.pure (by rw [value])))

/-- An expression between parentheses is read as a leaf. -/
theorem grouping_reads (reads : ReadsExprs depth steps inner) {expr : Concrete.Expr}
    (fits : expr.Fits) (room : expr.content.length ≤ steps) :
    Reads depth (grouping inner) (.fixed .openParen :: (expr.marks ++ [.fixed .closeParen])) next
      (· = expr.tree) (expr.rulesAt .lowest ++ [.expParen]) := by
  apply Reads.expect rfl rfl
  intro _ _
  refine (reads .lowest expr fits expr.sitsAt_lowest room).bind ?_ ?_
  · rintro value rfl
    exact Reads.expect rfl rfl fun _ _ => Reads.reduce (Reads.pure rfl)
  · rintro kind rfl
    decide

/-- An operator and its right operand are read behind any left operand. -/
theorem operation_reads (reads : ReadsExprs depth steps inner) (left : StartEnd.Expr)
    (operator : Operator) {right : Concrete.Expr} (fits : right.Fits)
    (held : ∀ child ∈ right.root?, operator.holds true child)
    (room : right.content.length ≤ steps) :
    Reads depth (operationBy inner left operator.power (handlerOf operator))
      (.fixed operator.kind :: right.marks) (Settles operator.rightPlace)
      (· = .binary left operator right.tree)
      (right.rulesAt operator.rightPlace ++ [operatorRule operator]) := by
  have operand : Reads depth (inner operator.rightPlace) right.marks
      (Settles operator.rightPlace) (· = right.tree) (right.rulesAt operator.rightPlace) :=
    reads operator.rightPlace right fits (Expr.sitsAt_rightPlace held) room
  have completed : Reads depth (do
        let value ← inner operator.rightPlace
        reduce (operatorRule operator)
        pure (StartEnd.Expr.binary left operator value))
      right.marks (Settles operator.rightPlace) (· = .binary left operator right.tree)
      (right.rulesAt operator.rightPlace ++ [operatorRule operator]) := by
    refine operand.bindLast ?_ fun kind settles => settles
    rintro value rfl
    exact Reads.reduce (Reads.pure rfl)
  by_cases power : operator = .pow
  · subst power
    exact Reads.expect rfl rfl fun _ _ => completed
  · have plain : handlerOf operator = .binary := by
      cases operator <;> first | rfl | exact absurd rfl power
    have place : operator.power = operator.rightPlace := by
      cases operator <;> first | rfl | exact absurd rfl power
    rw [plain, place]
    apply Reads.advance rfl
    intro token spelled
    have kind : token.kind = operator.kind := congrArg Lexeme.kind spelled
    have found : Operator.ofKind? token.kind = some operator :=
      (Operator.ofKind?_eq_some_iff _ _).mpr kind
    simp only [found]
    exact completed

/-- Behind an expression with an operator, the loop reads the operator and its right
operand and goes on behind them. -/
theorem operators_reads (reads : ReadsExprs depth steps inner) {place : BindingPower}
    {left right : Concrete.Expr} {operator : Operator}
    (above : place.strength < operator.power.strength) (fits : right.Fits)
    (held : ∀ child ∈ right.root?, operator.holds true child)
    (room : right.content.length ≤ steps)
    (settles : ∀ kind, Begins marks next kind → Settles operator.rightPlace kind)
    {count : Nat} {good : StartEnd.Expr → Prop}
    (goes_on : Reads depth
      (operators inner place count (.binary left.tree operator right.tree)
        (.ofOperator operator.power)) marks next good rules) :
    Reads depth (operators inner place (count + 1) left.tree left.layer)
      (.fixed operator.kind :: (right.marks ++ marks)) next good
      (promotions left.layer (.ofOperator operator.power) ++
        (right.rulesAt operator.rightPlace ++ [operatorRule operator] ++ rules)) := by
  unfold operators
  apply Reads.currentKind
  rintro kind rfl
  apply Reads.tables
  intro state standard
  have passes : (Tables.standard.power operator.kind).filter
      (fun power => place.strength < power.strength) = some operator.power := by
    simp [standard_power_operator, above]
  simp only [standard, Mark.fixed_kind, passes, standard_operator_operator]
  apply Reads.promote
  refine (operation_reads reads left.tree operator fits held room).bind ?_ settles
  rintro value rfl
  exact goes_on

/-- The leaf of an expression is read, and then the loop over operators goes on. -/
theorem leaf_reads {place : BindingPower} {kind : Token.Kind} (handler : LeafHandler)
    {leaf : List Mark} {tree : StartEnd.Expr} {early : List Rule} {count : Nat}
    {good : StartEnd.Expr → Prop}
    (starts : leaf.head?.map (·.kind) = some kind)
    (found : Tables.standard.leaf kind = some handler)
    (reads : Reads depth (leafBy inner handler) leaf (fun _ => True) (· = tree) early)
    (goes_on : Reads depth (operators inner place count tree .factor) marks next good rules) :
    Reads depth (exprContent count inner place) (leaf ++ marks) next good
      (early ++ .factorExp :: rules) := by
  obtain ⟨first, rest, rfl⟩ : ∃ first rest, leaf = first :: rest := by
    rcases leaf with _ | ⟨first, rest⟩
    · simp at starts
    · exact ⟨first, rest, rfl⟩
  obtain rfl : first.kind = kind := by simpa using starts
  unfold exprContent
  apply Reads.currentKind
  rintro kind rfl
  apply Reads.tables
  intro state standard
  simp only [standard, found]
  refine reads.bind ?_ fun _ _ => trivial
  rintro value rfl
  exact Reads.reduce goes_on

/-- An expression is read up to the end of its own operators, and then the loop goes on
with what stands behind. The induction follows the left operands: an operator is one
round of the loop behind its left operand. -/
theorem exprContent_reads_then (reads : ReadsExprs depth steps inner) {place : BindingPower}
    (expr : Concrete.Expr) (fits : expr.Fits) (sits : expr.SitsAt place)
    (room : expr.content.length ≤ steps) {count : Nat} {good : StartEnd.Expr → Prop}
    (settles : ∀ kind, Begins marks next kind →
      ∀ operator ∈ expr.root?, Settles operator.rightPlace kind)
    (goes_on : Reads depth (operators inner place count expr.tree expr.layer) marks next good
      rules) :
    Reads depth (exprContent (count + expr.spine) inner place) (expr.content ++ marks) next good
      (expr.rules ++ rules) := by
  induction expr generalizing count marks rules with
  | number digits => exact leaf_reads .primary rfl rfl (primary_reads_number digits) goes_on
  | symbol name => exact leaf_reads .primary rfl rfl (primary_reads_symbol name) goes_on
  | group expr inductionHypothesis =>
    have shorter : expr.content.length ≤ steps := by
      simp only [Expr.content, List.length_cons, List.length_append, length_raised] at room
      omega
    have leaf : Reads depth (leafBy inner .grouping)
        (.fixed .openParen :: (expr.marks ++ [.fixed .closeParen])) (fun _ => True)
        (· = expr.tree) (expr.rulesAt .lowest ++ [.expParen]) :=
      grouping_reads reads fits shorter
    have grouped := leaf_reads .grouping rfl rfl leaf goes_on
    simpa [Expr.content, Expr.marks, Expr.rules, Expr.rulesAt, Expr.spine] using grouped
  | binary left operator right leftHypothesis rightHypothesis =>
    obtain ⟨leftFits, rightFits, leftHeld, rightHeld⟩ := fits
    have above : place.strength < operator.power.strength := sits operator rfl
    have lengths : left.content.length + (right.content.length + 1) ≤ steps := by
      simpa [Expr.content] using room
    have round := operators_reads reads above rightFits rightHeld (by omega)
      (fun kind begun => settles kind begun operator rfl) goes_on
    have ends : ∀ kind, Begins (.fixed operator.kind :: (right.marks ++ marks)) next kind →
        ∀ child ∈ left.root?, Settles child.rightPlace kind := by
      rintro kind rfl
      exact Expr.settles_rightPlace_left leftHeld
    have whole := leftHypothesis leftFits (Expr.sitsAt_left above leftHeld) (by omega) ends round
    simpa [Expr.content, Expr.marks, Expr.rules, Expr.rulesAt, Expr.spine, Nat.add_assoc,
      Nat.add_comm 1] using whole

/-- The loop over operators stops at what ends the expression. -/
theorem operators_reads_end {place : BindingPower} (count : Nat) (left : StartEnd.Expr)
    (layer : Layer) :
    Reads depth (operators inner place count left layer) [] (Settles place) (· = left)
      (promotions layer (.ofPlace place)) := by
  have finished : Reads depth (do promote layer (.ofPlace place); pure left) [] (Settles place)
      (· = left) (promotions layer (.ofPlace place) ++ []) :=
    Reads.promote (Reads.pure rfl)
  rw [List.append_nil] at finished
  cases count with
  | zero => exact finished
  | succ count =>
    unfold operators
    apply Reads.currentKind
    intro kind settles
    apply Reads.tables
    intro state standard
    have stops : (Tables.standard.power kind).filter
        (fun power => place.strength < power.strength) = none := settles
    simp only [standard, stops]
    exact finished

/-- The content of an expression is read whole. -/
theorem exprContent_reads (reads : ReadsExprs depth steps inner) {place : BindingPower}
    {expr : Concrete.Expr} (fits : expr.Fits) (sits : expr.SitsAt place)
    (room : expr.content.length ≤ steps) :
    Reads depth (exprContent steps inner place) expr.content (Settles place) (· = expr.tree)
      (expr.rulesAt place) := by
  have counted : steps - expr.spine + expr.spine = steps := by
    have bound : expr.spine ≤ expr.content.length := expr.spine_le_length
    omega
  have ends : ∀ kind, Begins [] (Settles place) kind →
      ∀ operator ∈ expr.root?, Settles operator.rightPlace kind :=
    fun kind settles => Expr.settles_rightPlace sits settles
  have whole := exprContent_reads_then reads expr fits sits room ends
    (operators_reads_end (steps - expr.spine) expr.tree expr.layer)
  rwa [counted, List.append_nil] at whole

/-- If the parser passed in reads expressions inside a construct, the parser built from it
reads them where the construct stands. -/
theorem exprBy_reads (reads : ReadsExprs (depth + 1) steps inner) :
    ReadsExprs depth steps (exprBy steps inner) := by
  intro place expr fits sits room
  exact (exprContent_reads reads fits sits room).construct expr.content_ne_nil

/-- A comparison is read with both its sides. -/
theorem condition_reads (reads : ReadsExprs depth steps inner) {condition : Concrete.Condition}
    (fits : condition.Fits) (room : condition.marks.length ≤ steps) :
    Reads depth (Parse.condition inner) condition.marks (Settles .lowest) (· = condition.tree)
      condition.rules := by
  obtain ⟨left, operator, right⟩ := condition
  obtain ⟨leftFits, rightFits⟩ := fits
  have lengths : left.content.length + (right.content.length + 1) ≤ steps := by
    simpa [Concrete.Condition.marks, Expr.marks] using room
  have comparison : ∀ kind, kind = operator.kind → Comparison.ofKind? kind = some operator :=
    fun kind same => (Comparison.ofKind?_eq_some_iff _ _).mpr same
  refine (reads .lowest left leftFits left.sitsAt_lowest (by omega)).bind ?_ ?_
  · rintro value rfl
    apply Reads.currentKind
    intro kind begun
    simp only [comparison kind begun]
    refine Reads.advance rfl fun _ _ => Reads.reduce ?_
    refine (reads .lowest right rightFits right.sitsAt_lowest (by omega)).bindLast ?_
      fun _ settles => settles
    rintro value rfl
    exact Reads.reduce (Reads.pure rfl)
  · rintro kind rfl
    show Settles .lowest operator.kind
    cases operator <;> decide

end StartEnd.Parse
