import StartEnd.Proofs.Replay.Derivation

/-!
# Expressions that are continued

An expression may be continued by any operator and another expression. The grammar has a
layer for each precedence, so the continued expression is derived in another way than the
two expressions are: an operator that binds tightly goes on with the last operand only. A
derived expression is a sum of products of powers. Each of these layers is a chain whose
last operand can be replaced by a longer one.
-/

namespace StartEnd

open Replay (Powers derives_terminal)

/-- Operands with signs of some kinds between them. -/
inductive Chain (sign : Token.Kind → Prop) (operand : List Token → Prop) : List Token → Prop where
  | single {tokens : List Token} (holds : operand tokens) : Chain sign operand tokens
  | extend {front back : List Token} {token : Token} (chain : Chain sign operand front)
      (separates : sign token.kind) (holds : operand back) :
    Chain sign operand (front ++ token :: back)

/-- A chain is continued by what continues its last operand. -/
theorem Chain.continue {sign : Token.Kind → Prop} {operand : List Token → Prop}
    {tokens more : List Token}
    (longer : ∀ last, operand last → operand (last ++ more)) (chain : Chain sign operand tokens) :
    Chain sign operand (tokens ++ more) := by
  cases chain with
  | single holds => exact .single (longer _ holds)
  | extend chain separates holds =>
    rw [List.append_assoc, List.cons_append]
    exact .extend chain separates (longer _ holds)

/-- Signs of products. -/
def IsProductSign (kind : Token.Kind) : Prop := kind = .star ∨ kind = .slash

/-- Signs of sums. -/
def IsSumSign (kind : Token.Kind) : Prop := kind = .plus ∨ kind = .dash

/-- Powers and the signs of products between them. -/
def ProductChain : List Token → Prop := Chain IsProductSign Powers

/-- Products and the signs of sums between them. -/
def SumChain : List Token → Prop := Chain IsSumSign ProductChain

/-- A chain of products is derived from a term. -/
theorem ProductChain.derives {tokens : List Token} (chain : ProductChain tokens) :
    Derives [.nonterminal .term] tokens := by
  induction chain with
  | single holds => exact derives_of_body (production_mem .termFactor) holds.derives
  | extend chain separates holds inductionHypothesis =>
    rcases separates with isStar | isSlash
    · exact derives_of_body (production_mem .termMul)
        (inductionHypothesis.append ((derives_terminal isStar).append holds.derives))
    · exact derives_of_body (production_mem .termDiv)
        (inductionHypothesis.append ((derives_terminal isSlash).append holds.derives))

/-- A chain of sums is derived from an expression. -/
theorem SumChain.derives {tokens : List Token} (chain : SumChain tokens) :
    Derives [.nonterminal .expr] tokens := by
  induction chain with
  | single holds => exact derives_of_body (production_mem .exprTerm) holds.derives
  | extend chain separates holds inductionHypothesis =>
    rcases separates with isPlus | isDash
    · exact derives_of_body (production_mem .exprAdd)
        (inductionHypothesis.append ((derives_terminal isPlus).append holds.derives))
    · exact derives_of_body (production_mem .exprSub)
        (inductionHypothesis.append ((derives_terminal isDash).append holds.derives))

/-- A sum is continued by raising its last operand to a power. -/
theorem SumChain.raise {front back : List Token} {token : Token} (chain : SumChain front)
    (raises : token.kind = .starStar) (exponent : Powers back) :
    SumChain (front ++ token :: back) := by
  refine Chain.continue (fun product isProduct => ?_) chain
  refine Chain.continue (fun power isPower => ?_) isProduct
  exact Powers.append isPower raises exponent

/-- A sum is continued by multiplying its last operand. -/
theorem SumChain.multiply {front back : List Token} {token : Token} (chain : SumChain front)
    (separates : IsProductSign token.kind) (power : Powers back) :
    SumChain (front ++ token :: back) := by
  refine Chain.continue (fun product isProduct => ?_) chain
  exact .extend isProduct separates power

/-- The kinds of operators. -/
def operatorKinds : List Token.Kind := [.plus, .dash, .star, .slash, .starStar]

/-- An operator raises, multiplies or adds. -/
theorem operatorKinds_cases {kind : Token.Kind} (isOperator : kind ∈ operatorKinds) :
    kind = .starStar ∨ IsProductSign kind ∨ IsSumSign kind := by
  simp only [operatorKinds, List.mem_cons, List.not_mem_nil, or_false] at isOperator
  unfold IsProductSign IsSumSign
  tauto

/-- A sum is continued by any operator and a product. The induction is over the product,
whose first power alone is reached by the operator. -/
theorem SumChain.appendProduct {front back : List Token} {token : Token} (chain : SumChain front)
    (isOperator : token.kind ∈ operatorKinds) (product : ProductChain back) :
    SumChain (front ++ token :: back) := by
  rcases operatorKinds_cases isOperator with isPower | isProduct | isSum
  · induction product with
    | single power => exact chain.raise isPower power
    | extend _ separates power inductionHypothesis =>
      simpa using inductionHypothesis.multiply separates power
  · induction product with
    | single power => exact chain.multiply isProduct power
    | extend _ separates power inductionHypothesis =>
      simpa using inductionHypothesis.multiply separates power
  · exact .extend chain isSum product

/-- A sum is continued by any operator and a sum. -/
theorem SumChain.append {front back : List Token} {token : Token} (chain : SumChain front)
    (isOperator : token.kind ∈ operatorKinds) (sum : SumChain back) :
    SumChain (front ++ token :: back) := by
  induction sum with
  | single product => exact chain.appendProduct isOperator product
  | extend _ separates product inductionHypothesis =>
    have longer : SumChain _ := Chain.extend inductionHypothesis separates product
    simpa using longer

/-- Tokens that are derived from a symbol, as a chain where the symbol is a layer of
expressions. -/
def Layered : Symbol → List Token → Prop
  | .terminal kind, tokens => ∃ token, tokens = [token] ∧ token.kind = kind
  | .nonterminal .expr, tokens => SumChain tokens
  | .nonterminal .term, tokens => ProductChain tokens
  | .nonterminal .factor, tokens => Powers tokens
  | .nonterminal phrase, tokens => Derives [.nonterminal phrase] tokens

/-- What is layered is derived. -/
theorem Layered.derives {symbol : Symbol} {tokens : List Token} (layered : Layered symbol tokens) :
    Derives [symbol] tokens := by
  unfold Layered at layered
  split at layered
  · obtain ⟨token, rfl, same⟩ := layered
    exact derives_terminal same
  · exact layered.derives
  · exact layered.derives
  · exact layered.derives
  · exact layered

/-- What is derived from another phrase than a layer of expressions is layered. -/
theorem layered_of_derives {phrase : Nonterminal} {tokens : List Token}
    (other : phrase ∉ [Nonterminal.expr, .term, .factor])
    (derives : Derives [.nonterminal phrase] tokens) : Layered (.nonterminal phrase) tokens := by
  unfold Layered
  split <;> simp_all

/-- The productions for the layers of expressions. -/
theorem layer_rules : ∀ production ∈ productions,
    production.head ∈ [Nonterminal.expr, .term, .factor] →
    production ∈ [Rule.exprAdd, .exprSub, .exprTerm, .termMul, .termDiv, .termFactor, .factorPow,
      .factorExp].map Rule.production := by
  decide

/-- A chain, a sign and an operand in a row are a chain. -/
theorem chain_of_forest {sign : Token.Kind → Prop} {operand : List Token → Prop}
    {left right : Symbol} {kind : Token.Kind} {tokens : List Token} (separates : sign kind)
    (forest : Forest Layered [left, .terminal kind, right] tokens)
    (chained : ∀ tokens, Layered left tokens → Chain sign operand tokens)
    (held : ∀ tokens, Layered right tokens → operand tokens) : Chain sign operand tokens := by
  obtain ⟨front, _, back, rfl, early, ⟨token, rfl, rfl⟩, late⟩ := forest_triple_iff.mp forest
  exact .extend (chained front early) separates (held back late)

/-- Every production hands on layers from its body to its head. -/
theorem layered_of_production {production : Production} (listed : production ∈ productions)
    {tokens : List Token} (forest : Forest Layered production.body tokens) :
    Layered (.nonterminal production.head) tokens := by
  by_cases layer : production.head ∈ [Nonterminal.expr, .term, .factor]
  · have rules := layer_rules production listed layer
    simp only [List.map_cons, List.map_nil, List.mem_cons, List.not_mem_nil, or_false] at rules
    rcases rules with rfl | rfl | rfl | rfl | rfl | rfl | rfl | rfl
    · exact chain_of_forest (.inl rfl) forest (fun _ sum => sum) fun _ product => product
    · exact chain_of_forest (.inr rfl) forest (fun _ sum => sum) fun _ product => product
    · exact .single (forest_singleton_iff.mp forest)
    · exact chain_of_forest (.inl rfl) forest (fun _ product => product) fun _ power => power
    · exact chain_of_forest (.inr rfl) forest (fun _ product => product) fun _ power => power
    · exact .single (forest_singleton_iff.mp forest)
    · obtain ⟨_, _, _, rfl, power, ⟨token, rfl, raises⟩, operand⟩ := forest_triple_iff.mp forest
      exact Powers.raise power raises operand
    · exact Powers.base (forest_singleton_iff.mp forest)
  · exact layered_of_derives layer
      (derives_of_body listed (derives_of_forest (fun _ _ => Layered.derives) forest))

/-- A derived expression is a sum of products of powers. -/
theorem sumChain_of_derives {tokens : List Token} (derives : Derives [.nonterminal .expr] tokens) :
    SumChain tokens := by
  have forest : Forest Layered [.nonterminal .expr] tokens :=
    forest_of_derives (fun token => ⟨token, rfl, rfl⟩)
      (fun _ listed _ => layered_of_production listed) derives
  exact forest_singleton_iff.mp forest

/-- Expressions with an operator between them are an expression. -/
theorem derives_expr_append {front back : List Token} {token : Token}
    (early : Derives [.nonterminal .expr] front) (isOperator : token.kind ∈ operatorKinds)
    (late : Derives [.nonterminal .expr] back) :
    Derives [.nonterminal .expr] (front ++ token :: back) :=
  ((sumChain_of_derives early).append isOperator (sumChain_of_derives late)).derives

end StartEnd
