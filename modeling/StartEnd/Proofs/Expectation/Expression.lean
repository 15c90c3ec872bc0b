import StartEnd.Proofs.Concrete.Expression
import StartEnd.Proofs.Expectation.Judgement

/-!
# What is expected in expressions

An expression is expected from its first token on. Behind an operand, any operator may go
on with the expression, whatever the place: where the operator binds too loosely for the
place, a construct around it takes it. So the loop over operators leaves all operators
asked for, and what it consumes continues every expression.
-/

namespace StartEnd.Parse

open Replay (derives_terminal)

/-- Parsers of expressions expect expressions. -/
def ExpectsExprs (steps : Nat) (parser twin : ExprParser) : Prop :=
  ∀ place, Expects steps AnyKind [] (parser place) (twin place) (Derives [.nonterminal .expr])
    operatorKinds

/-- Tokens that go on with any expression. -/
def ContinuesExpr (tokens : List Token) : Prop :=
  ∀ front, Derives [.nonterminal .expr] front → Derives [.nonterminal .expr] (front ++ tokens)

variable {α : Type} {steps : Nat} {fact : Token.Kind → Prop} {asked left : List Token.Kind}
  {phrase : List Token → Prop} {inner twin : ExprParser}

/-- Nothing goes on with any expression. -/
theorem continuesExpr_nil : ContinuesExpr [] := by
  intro front derives
  rwa [List.append_nil]

/-- An operator, an expression and what goes on with it go on with any expression. -/
theorem ContinuesExpr.operation {token : Token} {operand more : List Token}
    (isOperator : token.kind ∈ operatorKinds) (derives : Derives [.nonterminal .expr] operand)
    (continues : ContinuesExpr more) : ContinuesExpr (token :: (operand ++ more)) := by
  intro front early
  have longer := continues _ (derives_expr_append early isOperator derives)
  simpa using longer

/-- Steps between layers are not seen by the parser. -/
theorem Expects.promote {low high : Layer} {second secondTwin : Unit → Parse α}
    (rest : Expects steps fact asked (second ()) (secondTwin ()) phrase left) :
    Expects steps fact asked (Parse.promote low high >>= second)
      (Parse.promote low high >>= secondTwin) phrase left := by
  refine Expects.silent (fun state => ?_) rest
  cases low <;> cases high <;> exact ⟨_, rfl⟩

/-- A number or a name is an operand. -/
theorem primary_expects {kind : Token.Kind} (isLeaf : kind = .number ∨ kind = .identifier) :
    Expects steps (· = kind) asked primary primary (Derives [.nonterminal .exp]) [] := by
  refine Expects.consume ?_ ?_ fun token same => ?_
  · rintro _ rfl
    rcases isLeaf with rfl | rfl <;> decide
  · intro token same
    rcases isLeaf with rfl | rfl
    · exact derives_of_body (production_mem .expDigit)
        (derives_of_body (production_mem .digit) (derives_terminal same))
    · exact derives_of_body (production_mem .expId)
        (derives_of_body (production_mem .id) (derives_terminal same))
  · rcases isLeaf with rfl | rfl
    all_goals
      simp only [same]
      exact Expects.reduce (Expects.reduce (Expects.finish (List.nil_subset _)))

/-- An expression between parentheses is an operand. -/
theorem grouping_expects (expects : ExpectsExprs steps inner twin) :
    Expects steps (· = .openParen) asked (grouping inner) (grouping twin)
      (Derives [.nonterminal .exp]) [] := by
  apply Expects.produce .expParen
  refine Expects.expectKnown (by decide) fun _ _ => ?_
  refine (expects .lowest).call fun _ => ?_
  refine Expects.expect (by decide) (fun _ _ _ => by decide) fun _ _ => ?_
  exact Expects.reduce (Expects.finish (List.nil_subset _))

/-- The leaf that the tables give for the next token is an operand. -/
theorem leafBy_expects (expects : ExpectsExprs steps inner twin) {kind : Token.Kind}
    {handler : LeafHandler} (found : Tables.standard.leaf kind = some handler) :
    Expects steps (· = kind) asked (leafBy inner handler) (leafBy twin handler)
      (Derives [.nonterminal .exp]) [] := by
  have cases : (kind = .number ∨ kind = .identifier) ∧ handler = .primary ∨
      kind = .openParen ∧ handler = .grouping := by
    revert found
    cases kind <;> cases handler <;> decide
  rcases cases with ⟨isLeaf, rfl⟩ | ⟨rfl, rfl⟩
  · exact primary_expects isLeaf
  · exact grouping_expects expects

/-- An operator and its right operand go on with any expression. -/
theorem operation_expects {count : Nat} (expects : ExpectsExprs steps inner twin)
    (bound : count ≤ steps) (operator : Operator) (left : Expr) {second secondTwin : Expr → Parse α}
    (rest : ∀ value, Expects count AnyKind operatorKinds (second value) (secondTwin value)
      ContinuesExpr operatorKinds) :
    Expects (count + 1) (· = operator.kind) asked
      (operationBy inner left operator.power (handlerOf operator) >>= second)
      (operationBy twin left operator.power (handlerOf operator) >>= secondTwin) ContinuesExpr
      operatorKinds := by
  have isOperator : operator.kind ∈ operatorKinds := by cases operator <;> decide
  have completed (token : Token) (same : token.kind = operator.kind) :
      Expects count AnyKind [] (do
          let right ← inner operator.rightPlace
          reduce (operatorRule operator)
          second (.binary left operator right))
        (do
          let right ← twin operator.rightPlace
          reduce (operatorRule operator)
          secondTwin (.binary left operator right))
        (fun back => ContinuesExpr (token :: back)) operatorKinds := by
    have operand := (expects operator.rightPlace).weaken bound (fun _ known => known)
      (List.nil_subset _)
    refine operand.bind (fun right => Expects.reduce (rest _)) ⟨[], continuesExpr_nil⟩ ?_
    exact fun _ _ derives continues => continues.operation (same ▸ isOperator) derives
  -- A power demands its sign, while the other operators consume whatever token is there.
  by_cases power : operator = .pow
  · subst power
    simp only [handlerOf, operationBy, exponent, bind_assoc, pure_bind]
    refine Expects.expectFewer (by decide) ?_ (fun _ same other => absurd same other) completed
    obtain ⟨operand, derives⟩ := exists_derives [.nonterminal .expr]
    exact ⟨.bare .starStar, operand, rfl, by
      simpa using continuesExpr_nil.operation isOperator derives⟩
  · have plain : handlerOf operator = .binary := by
      cases operator <;> first | rfl | exact absurd rfl power
    have place : operator.power = operator.rightPlace := by
      cases operator <;> first | rfl | exact absurd rfl power
    rw [plain]
    simp only [operationBy, binary, bind_assoc]
    refine Expects.advanceFewer ?_ fun token same => ?_
    · rintro found rfl
      cases operator <;> decide
    have found : Operator.ofKind? token.kind = some operator :=
      (Operator.ofKind?_eq_some_iff _ _).mpr same
    simp only [found, bind_assoc, pure_bind]
    rw [place]
    exact completed token same

/-- The loop over operators stops where an expression ends, whether or not it has rounds
left. -/
theorem operators_stops (place : BindingPower) (count : Nat) (left : Expr) (layer : Layer) :
    StopsAt (Settles place) (operators inner place count left layer)
      (do promote layer (.ofPlace place); pure left) := by
  cases count with
  | zero => exact StopsAt.refl _ _
  | succ count =>
    refine StopsAt.look fun kind settles => same_tables fun state standard => ?_
    have stops : (Tables.standard.power kind).filter
        (fun power => place.strength < power.strength) = none := settles
    simp only [standard, stops]

/-- The loop over operators goes on with any expression if it does so at an operator. -/
theorem operators_expects_of_operator {place : BindingPower} {count more : Nat} {left : Expr}
    {layer : Layer}
    (goes_on : Expects steps (fun kind => ¬ Settles place kind) operatorKinds
      (operators inner place count left layer) (operators twin place more left layer) ContinuesExpr
      operatorKinds) :
    Expects steps AnyKind operatorKinds (operators inner place count left layer)
      (operators twin place more left layer) ContinuesExpr operatorKinds := by
  refine Expects.loop (Settles place) ?_ (operators_stops place count left layer)
    (operators_stops place more left layer) ?_ goes_on
  · intro kind absent
    revert absent
    cases kind <;> cases place <;> decide
  · exact Expects.promote (Expects.pure continuesExpr_nil fun _ inside => inside)

/-- The loop over operators goes on with any expression. The induction is over the rounds,
of which there are enough for the items ahead. -/
theorem operators_expects (expects : ExpectsExprs steps inner twin) (place : BindingPower)
    {count more : Nat} (bound : count ≤ steps) (rounds : count ≤ more) (left : Expr)
    (layer : Layer) :
    Expects count AnyKind operatorKinds (operators inner place count left layer)
      (operators twin place more left layer) ContinuesExpr operatorKinds := by
  induction count generalizing more left layer with
  | zero =>
    refine operators_expects_of_operator (Expects.ended fun goes_on => goes_on ?_)
    cases place <;> decide
  | succ count inductionHypothesis =>
    obtain ⟨further, rfl⟩ : ∃ further, more = further + 1 := ⟨more - 1, by omega⟩
    apply operators_expects_of_operator
    unfold operators
    refine Expects.inspect fun kind holds => ?_
    cases found : (Tables.standard.power kind).filter
        (fun power => place.strength < power.strength) with
    | none => exact absurd found holds
    | some power =>
      obtain ⟨isPower, _⟩ := Option.filter_eq_some_iff.mp found
      obtain ⟨operator, rfl, rfl⟩ := exists_operator_of_power isPower
      have operation : Expects (count + 1) (· = operator.kind) Token.Kind.all
          (do
            promote layer (.ofOperator operator.power)
            let extended ← operationBy inner left operator.power (handlerOf operator)
            operators inner place count extended (.ofOperator operator.power))
          (do
            promote layer (.ofOperator operator.power)
            let extended ← operationBy twin left operator.power (handlerOf operator)
            operators twin place further extended (.ofOperator operator.power))
          ContinuesExpr operatorKinds :=
        Expects.promote (operation_expects expects (Nat.le_of_succ_le bound) operator left
          fun value => inductionHypothesis (Nat.le_of_succ_le bound)
            (Nat.le_of_succ_le_succ rounds) value _)
      refine operation.congr (same_tables fun state standard => ?_)
        (same_tables fun state standard => ?_)
      all_goals simp only [standard, found, standard_operator_operator]

/-- The tables have a leaf for the kinds that begin an operand. -/
theorem standard_leaf_eq_none_iff {kind : Token.Kind} :
    Tables.standard.leaf kind = none ↔ kind ∉ Nonterminal.exp.first := by
  rw [first_exp]
  cases kind <;> decide

/-- What begins an operand begins an expression. -/
theorem opens_expr {kind : Token.Kind} (opens : First.Opens [.nonterminal .exp] kind) :
    First.Opens [.nonterminal .expr] kind := by
  obtain ⟨token, rest, same, derives⟩ := opens
  have factor := derives_of_body (production_mem .factorExp) derives
  have term := derives_of_body (production_mem .termFactor) factor
  exact ⟨token, rest, same, derives_of_body (production_mem .exprTerm) term⟩

/-- An operand and what goes on with it are an expression. -/
theorem derives_expr_of_exp {operand more : List Token}
    (derives : Derives [.nonterminal .exp] operand) (continues : ContinuesExpr more) :
    Derives [.nonterminal .expr] (operand ++ more) := by
  have factor := derives_of_body (production_mem .factorExp) derives
  have term := derives_of_body (production_mem .termFactor) factor
  exact continues _ (derives_of_body (production_mem .exprTerm) term)

/-- The content of an expression is an expression. -/
theorem exprContent_expects (expects : ExpectsExprs steps inner twin) {more : Nat}
    (rounds : steps ≤ more) (place : BindingPower) :
    Expects steps AnyKind [] (exprContent steps inner place) (exprContent more twin place)
      (Derives [.nonterminal .expr]) operatorKinds := by
  unfold exprContent
  refine Expects.select .exp (by rw [first_exp]; decide) (fun _ => opens_expr)
    (fun _ _ _ => List.nil_subset _) ?_ ?_ ?_
  · intro kind absent
    refine same_tables fun state standard => ?_
    simp only [standard, standard_leaf_eq_none_iff.mpr absent]
  · intro kind absent
    refine same_tables fun state standard => ?_
    simp only [standard, standard_leaf_eq_none_iff.mpr absent]
  · intro kind listed _
    cases found : Tables.standard.leaf kind with
    | none => exact absurd listed (standard_leaf_eq_none_iff.mp found)
    | some handler =>
      have operand : Expects steps (· = kind) Token.Kind.all (leafBy inner handler)
          (leafBy twin handler) (Derives [.nonterminal .exp]) [] := leafBy_expects expects found
      have whole : Expects steps (· = kind) Token.Kind.all
          (do
            let left ← leafBy inner handler
            reduce .factorExp
            operators inner place steps left .factor)
          (do
            let left ← leafBy twin handler
            reduce .factorExp
            operators twin place more left .factor)
          (Derives [.nonterminal .expr]) operatorKinds := by
        refine operand.bind (fun left => Expects.reduce ?_) ⟨[], continuesExpr_nil⟩
          fun _ _ => derives_expr_of_exp
        exact (operators_expects expects place (Nat.le_refl _) rounds left .factor).weaken
          (Nat.le_refl _) (fun _ known => known) (List.nil_subset _)
      refine whole.congr (same_tables fun state standard => ?_)
        (same_tables fun state standard => ?_)
      all_goals simp only [standard, found]

/-- If the parsers passed in expect expressions, so do the parsers built from them. -/
theorem exprBy_expects (expects : ExpectsExprs steps inner twin) {more : Nat}
    (rounds : steps ≤ more) : ExpectsExprs steps (exprBy steps inner) (exprBy more twin) :=
  fun place => (exprContent_expects expects rounds place).construct

/-- The signs of comparisons are the kinds that begin one. -/
theorem comparison_eq_none_iff {kind : Token.Kind} :
    Comparison.ofKind? kind = none ↔ kind ∉ Nonterminal.op.first := by
  rw [first_op]
  cases kind <;> decide

/-- A comparison is expected with both its sides. -/
theorem condition_expects (expects : ExpectsExprs steps inner twin) :
    Expects steps AnyKind [] (Parse.condition inner) (Parse.condition twin)
      (Derives [.nonterminal .condition]) operatorKinds := by
  apply Expects.produce .condition
  refine (expects .lowest).call fun left => ?_
  refine Expects.select .op (by rw [first_op]; decide) ?_ ?_ ?_ ?_ ?_
  · intro kind opens
    exact opens.append [.nonterminal .expr]
  · intro kind _ _
    unfold wanted omitted
    rw [first_op]
    decide
  · intro kind absent state ready
    simp only [comparison_eq_none_iff.mpr absent]
  · intro kind absent state ready
    simp only [comparison_eq_none_iff.mpr absent]
  · intro kind listed _
    cases found : Comparison.ofKind? kind with
    | none => exact absurd listed (comparison_eq_none_iff.mp found)
    | some operator =>
      obtain rfl := (Comparison.ofKind?_eq_some_iff _ _).mp found
      refine Expects.consume ?_ ?_ fun token _ => ?_
      · rintro _ rfl
        cases operator <;> decide
      · intro token same
        cases operator
        · exact derives_of_body (production_mem .opLt) (derives_terminal same)
        · exact derives_of_body (production_mem .opGt) (derives_terminal same)
        · exact derives_of_body (production_mem .opEq) (derives_terminal same)
        · exact derives_of_body (production_mem .opNeq) (derives_terminal same)
      · refine Expects.reduce ((expects .lowest).call fun right => ?_)
        exact Expects.reduce (Expects.finish fun _ inside => inside)

end StartEnd.Parse
