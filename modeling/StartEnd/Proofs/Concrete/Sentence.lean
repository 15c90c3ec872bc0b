import StartEnd.Proofs.Concrete.Greedy
import StartEnd.Proofs.Grammar.Derivation
import StartEnd.Proofs.Reading.Program

/-!
# Every sentence is written down in one way

Tokens that are derived from a phrase of the grammar write down a concrete phrase that a
parse finds. Each production makes a concrete phrase from those of its body. Only three
of them regroup: the one for powers, the one that lets a body follow a statement, and the
one that lets an `else` follow a body without braces.
-/

namespace StartEnd

open Concrete

/-- Tokens that write down an expression for a place. -/
def WritesExpr (place : BindingPower) (tokens : List Token) : Prop :=
  ∃ expr : Concrete.Expr, expr.Fits ∧ expr.SitsAt place ∧ Spells tokens expr.content

/-- Tokens that write down a statement. -/
def WritesStmt (tokens : List Token) : Prop :=
  ∃ statement : Concrete.Stmt, statement.Complete ∧ Spells tokens statement.marks

/-- Tokens that write down a phrase. -/
def Nonterminal.Writes : Nonterminal → List Token → Prop
  | .program, tokens => ∃ body : Body, body.Placed .endWord ∧ Spells tokens body.programMarks
  | .body, tokens => ∃ body : Body, body.Complete ∧ Spells tokens body.content
  | .concept, tokens | .repetition, tokens | .declaration, tokens | .functionDecl, tokens
  | .functionCall, tokens => WritesStmt tokens
  | .assign, tokens => ∃ assign : Concrete.Assign, assign.value.Fits ∧ Spells tokens assign.marks
  | .id, tokens | .name, tokens => ∃ text, Spells tokens [.named text]
  | .expr, tokens => WritesExpr .lowest tokens
  | .term, tokens => WritesExpr .additive tokens
  | .factor, tokens => WritesExpr .multiplicative tokens
  | .exp, tokens => WritesExpr .exponential tokens
  | .digit, tokens => ∃ text, Spells tokens [.digits text]
  | .branch, tokens => ∃ link : Link, link.Complete ∧ Spells tokens link.content
  | .condition, tokens =>
    ∃ condition : Concrete.Condition, condition.Fits ∧ Spells tokens condition.marks
  | .op, tokens => ∃ comparison : Comparison, Spells tokens [.fixed comparison.kind]
  | .data, tokens | .dataType, tokens => ∃ dataType : DataType, Spells tokens [.fixed dataType.kind]
  | .step, tokens => ∃ step : Concrete.Step, step.Fits ∧ Spells tokens step.marks
  | .parameter, tokens => ∃ parameters, parameters ≠ [] ∧ Spells tokens (parameterMarks parameters)

/-- Tokens that write down a symbol. -/
def Symbol.Writes : Symbol → List Token → Prop
  | .terminal kind, tokens => ∃ token, tokens = [token] ∧ token.kind = kind
  | .nonterminal phrase, tokens => phrase.Writes tokens

/-- A terminal whose kind fixes its text is written down as a mark. -/
theorem Symbol.Writes.fixed {kind : Token.Kind} {tokens : List Token}
    (writes : Symbol.Writes (.terminal kind) tokens) (closed : kind.isOpen = false) :
    Spells tokens [.fixed kind] := by
  obtain ⟨token, rfl, same⟩ := writes
  exact spells_fixed same closed

/-- An operator that groups to the left is written down between operands of its layers. -/
theorem writesExpr_binary (operator : Operator) {place : BindingPower}
    {front middle back : List Token} (groupsLeft : operator.groupsRight = false)
    (left : WritesExpr place front) (sign : Symbol.Writes (.terminal operator.kind) middle)
    (right : WritesExpr operator.power back)
    (next : place.strength + 1 = operator.power.strength) :
    WritesExpr place (front ++ (middle ++ back)) := by
  obtain ⟨left, leftFits, leftSits, leftSpelled⟩ := left
  obtain ⟨right, rightFits, rightSits, rightSpelled⟩ := right
  refine ⟨.binary left operator right, ⟨leftFits, rightFits, ?_, ?_⟩, ?_, ?_⟩
  · intro child isRoot
    have above := leftSits child isRoot
    revert above next groupsLeft
    cases place <;> cases operator <;> cases child <;> decide
  · intro child isRoot
    have above := rightSits child isRoot
    revert above groupsLeft
    cases operator <;> cases child <;> decide
  · intro other isRoot
    obtain rfl : operator = other := Option.some.inj isRoot
    omega
  · have signSpelled : Spells middle [.fixed operator.kind] :=
      sign.fixed (by cases operator <;> rfl)
    exact leftSpelled.append (signSpelled.append (spells_raised_iff.mpr rightSpelled))

/-- A power of a chain of powers is written down. -/
theorem writesExpr_pow {front middle back : List Token}
    (power : WritesExpr .multiplicative front)
    (sign : Symbol.Writes (.terminal .starStar) middle) (exponent : WritesExpr .exponential back) :
    WritesExpr .multiplicative (front ++ (middle ++ back)) := by
  obtain ⟨power, powerFits, powerSits, powerSpelled⟩ := power
  obtain ⟨exponent, exponentFits, exponentSits, exponentSpelled⟩ := exponent
  have looser : exponent.SitsAt .multiplicative :=
    fun child isRoot => Nat.lt_of_le_of_lt (by decide) (exponentSits child isRoot)
  obtain ⟨expr, fits, isPower, lexemes⟩ :=
    Concrete.Expr.exists_raise powerFits powerSits exponentFits looser
  refine ⟨expr, fits, ?_, ?_⟩
  · intro operator isRoot
    rw [isPower] at isRoot
    obtain rfl : Operator.pow = operator := by simpa using isRoot
    decide
  · have whole := powerSpelled.append ((sign.fixed rfl).append exponentSpelled)
    exact spells_congr whole lexemes

/-- An expression for a place that demands more can stand where less is demanded. -/
theorem WritesExpr.mono {higher lower : BindingPower} {tokens : List Token}
    (writes : WritesExpr higher tokens) (above : lower.strength ≤ higher.strength) :
    WritesExpr lower tokens := by
  obtain ⟨expr, fits, sits, spelled⟩ := writes
  exact ⟨expr, fits, fun child isRoot => Nat.lt_of_le_of_lt above (sits child isRoot), spelled⟩

/-- An `if` with a body that its braces or what follows end is written down. -/
theorem writes_last {condition : Concrete.Condition} {braced : Bool} {body : Body}
    {tokens : List Token} (fits : condition.Fits) (complete : body.Complete)
    (spelled : Spells tokens (Link.last condition braced body).content) :
    Nonterminal.Writes .branch tokens := by
  refine ⟨.last condition braced body, fun kind neutral => ⟨fits, ?_, complete.1, neutral.2.2⟩,
    spelled⟩
  cases braced with
  | true => exact complete.2 .closeCurly (by decide)
  | false => exact complete.2 kind neutral

/-- An `if` with braces that `else` continues is written down. -/
theorem writes_bracedElse {condition : Concrete.Condition} {body : Body} {next : Link}
    {tokens : List Token} (fits : condition.Fits) (complete : body.Complete)
    (nextComplete : next.Complete)
    (spelled : Spells tokens (Link.orElse condition true body next).content) :
    Nonterminal.Writes .branch tokens := by
  refine ⟨.orElse condition true body next, fun kind neutral => ?_, spelled⟩
  exact ⟨fits, complete.2 .closeCurly (by decide), complete.1, nextComplete kind neutral⟩

/-- An `if` without braces that `else` continues is written down. -/
theorem writes_bareElse {condition : Concrete.Condition} {body : Body} {next : Link}
    {tokens : List Token} (fits : condition.Fits) (complete : body.Complete)
    (nextComplete : next.Complete)
    (spelled : Spells tokens (Link.orElse condition false body next).content) :
    Nonterminal.Writes .branch tokens := by
  rcases Body.attach nextComplete body complete with follows | ⟨longer, longerComplete, _, same⟩
  · exact ⟨.orElse condition false body next, fun kind neutral =>
      ⟨fits, follows, complete.1, nextComplete kind neutral⟩, spelled⟩
  · have regrouped : Spells tokens (Link.last condition false longer).content := by
      apply spells_congr spelled
      simp only [Link.content, enclosed, Bool.false_eq_true, ↓reduceIte, lexemes_append,
        lexemes_cons, lexemes_raised] at same ⊢
      rw [same]
    exact writes_last fits longerComplete regrouped

/-- A loop is written down. -/
theorem writes_repetition {tokens : List Token}
    (forest : Forest Symbol.Writes Rule.repetition.production.body tokens) :
    WritesStmt tokens := by
  obtain ⟨_, _, rfl, isRep, _, _, rfl, opens, _, _, rfl, ⟨dataType, typed⟩, _, _, rfl,
    ⟨init, initFits, initSpelled⟩, _, _, rfl, separates, _, _, rfl,
    ⟨condition, fits, tested⟩, _, _, rfl, separatesAgain, _, _, rfl,
    ⟨step, stepFits, stepSpelled⟩, _, _, rfl, closes, _, _, rfl, begins, _, _, rfl,
    ⟨body, complete, spelled⟩, _, _, rfl, ends, rfl⟩ := forest
  rw [List.append_nil]
  refine ⟨.repetition dataType init condition step body, fun _ _ => ?_, ?_⟩
  · exact ⟨initFits, fits, stepFits, complete.2 .closeCurly (by decide), complete.1⟩
  · exact (isRep.fixed rfl).append ((opens.fixed rfl).append (typed.append
      (initSpelled.append ((separates.fixed rfl).append (tested.append
        ((separatesAgain.fixed rfl).append (stepSpelled.append ((closes.fixed rfl).append
          ((begins.fixed rfl).append ((spells_raised_iff.mpr spelled).append
            (ends.fixed rfl)))))))))))

/-- The declaration of a function is written down. -/
theorem writes_functionDecl {tokens : List Token}
    (forest : Forest Symbol.Writes Rule.functionDecl.production.body tokens) :
    WritesStmt tokens := by
  obtain ⟨_, _, rfl, isFunc, _, _, rfl, ⟨dataType, typed⟩, _, _, rfl, ⟨name, named⟩, _, _, rfl,
    opens, _, _, rfl, ⟨parameters, present, listed⟩, _, _, rfl, closes, _, _, rfl, begins,
    _, _, rfl, ⟨body, complete, spelled⟩, _, _, rfl, isRet, _, _, rfl, ⟨result, returned⟩,
    _, _, rfl, ends, rfl⟩ := forest
  rw [List.append_nil]
  refine ⟨.function dataType ⟨name⟩ parameters body ⟨result⟩, fun _ _ => ?_, ?_⟩
  · exact ⟨present, complete.2 .retWord (by decide), complete.1⟩
  · exact (isFunc.fixed rfl).append (typed.append (named.append ((opens.fixed rfl).append
      (listed.append ((closes.fixed rfl).append ((begins.fixed rfl).append
        ((spells_raised_iff.mpr spelled).append ((isRet.fixed rfl).append
          (returned.append (ends.fixed rfl))))))))))

/-- Every listed production makes a written phrase from the written parts of its body. -/
theorem writes_of_rule (rule : Rule) {tokens : List Token}
    (forest : Forest Symbol.Writes rule.production.body tokens) :
    rule.production.head.Writes tokens := by
  cases rule with
  | program =>
    obtain ⟨_, _, _, rfl, starts, ⟨body, complete, spelled⟩, ends⟩ := forest_triple_iff.mp forest
    refine ⟨body, ⟨complete.2 .endWord (by decide), complete.1⟩, ?_⟩
    exact (starts.fixed rfl).append ((spells_raised_iff.mpr spelled).append (ends.fixed rfl))
  | bodySingle =>
    obtain ⟨statement, complete, spelled⟩ := forest_singleton_iff.mp forest
    refine ⟨.cons statement .nil, Body.complete_single_iff.mpr complete, ?_⟩
    simpa [Body.content] using spelled
  | bodyCons =>
    obtain ⟨_, _, rfl, ⟨statement, single, first⟩, ⟨body, complete, rest⟩⟩ :=
      forest_pair_iff.mp forest
    obtain ⟨longer, longerComplete, _, same⟩ :=
      Body.absorb complete (.cons statement .nil) (Body.complete_single_iff.mpr single)
    refine ⟨longer, longerComplete, ?_⟩
    exact spells_congr (first.append rest) (by simpa [Body.content] using same)
  | conceptAssign =>
    obtain ⟨assign, fits, spelled⟩ := forest_singleton_iff.mp forest
    exact ⟨.assign assign, fun kind neutral => ⟨fits, neutral.1⟩, spelled⟩
  | conceptDeclaration => exact forest_singleton_iff.mp forest
  | conceptBranch =>
    obtain ⟨link, complete, spelled⟩ := forest_singleton_iff.mp forest
    exact ⟨.branch link, complete, spells_raised_iff.mpr spelled⟩
  | conceptRepetition => exact forest_singleton_iff.mp forest
  | conceptFunctionDecl => exact forest_singleton_iff.mp forest
  | conceptFunctionCall => exact forest_singleton_iff.mp forest
  | assign =>
    obtain ⟨_, _, _, rfl, ⟨text, target⟩, sign, ⟨value, fits, _, spelled⟩⟩ :=
      forest_triple_iff.mp forest
    refine ⟨⟨⟨text⟩, value⟩, fits, ?_⟩
    exact target.append ((sign.fixed rfl).append (spells_raised_iff.mpr spelled))
  | id =>
    obtain ⟨token, rfl, same⟩ := forest_singleton_iff.mp forest
    exact ⟨token.value, spells_named same⟩
  | exprAdd =>
    obtain ⟨_, _, _, rfl, left, sign, right⟩ := forest_triple_iff.mp forest
    exact writesExpr_binary .add rfl left sign right rfl
  | exprSub =>
    obtain ⟨_, _, _, rfl, left, sign, right⟩ := forest_triple_iff.mp forest
    exact writesExpr_binary .sub rfl left sign right rfl
  | exprTerm => exact (forest_singleton_iff.mp forest).mono (by decide)
  | termMul =>
    obtain ⟨_, _, _, rfl, left, sign, right⟩ := forest_triple_iff.mp forest
    exact writesExpr_binary .mul rfl left sign right rfl
  | termDiv =>
    obtain ⟨_, _, _, rfl, left, sign, right⟩ := forest_triple_iff.mp forest
    exact writesExpr_binary .div rfl left sign right rfl
  | termFactor => exact (forest_singleton_iff.mp forest).mono (by decide)
  | factorPow =>
    obtain ⟨_, _, _, rfl, power, sign, exponent⟩ := forest_triple_iff.mp forest
    exact writesExpr_pow power sign exponent
  | factorExp => exact (forest_singleton_iff.mp forest).mono (by decide)
  | expParen =>
    obtain ⟨_, _, _, rfl, opens, ⟨inner, fits, _, spelled⟩, closes⟩ :=
      forest_triple_iff.mp forest
    refine ⟨.group inner, fits, nofun, ?_⟩
    exact (opens.fixed rfl).append ((spells_raised_iff.mpr spelled).append (closes.fixed rfl))
  | expId =>
    obtain ⟨text, spelled⟩ := forest_singleton_iff.mp forest
    exact ⟨.symbol ⟨text⟩, trivial, nofun, spelled⟩
  | expDigit =>
    obtain ⟨text, spelled⟩ := forest_singleton_iff.mp forest
    exact ⟨.number text, trivial, nofun, spelled⟩
  | digit =>
    obtain ⟨token, rfl, same⟩ := forest_singleton_iff.mp forest
    exact ⟨token.value, spells_digits same⟩
  | branchThen =>
    obtain ⟨_, _, rfl, isIf, _, _, rfl, opens, _, _, rfl, ⟨condition, fits, tested⟩, _, _, rfl,
      closes, _, _, rfl, ⟨body, complete, spelled⟩, rfl⟩ := forest
    rw [List.append_nil]
    have whole : Spells _ (Link.last condition false body).content :=
      (isIf.fixed rfl).append ((opens.fixed rfl).append (tested.append
        ((closes.fixed rfl).append (spells_raised_iff.mpr spelled))))
    exact writes_last fits complete whole
  | branchElse =>
    obtain ⟨_, _, rfl, isIf, _, _, rfl, opens, _, _, rfl, ⟨condition, fits, tested⟩, _, _, rfl,
      closes, _, _, rfl, ⟨body, complete, spelled⟩, _, _, rfl, isElse, _, _, rfl,
      ⟨next, nextComplete, continued⟩, rfl⟩ := forest
    rw [List.append_nil]
    have whole : Spells _ (Link.orElse condition false body next).content :=
      (isIf.fixed rfl).append ((opens.fixed rfl).append (tested.append
        ((closes.fixed rfl).append ((spells_raised_iff.mpr spelled).append
          ((isElse.fixed rfl).append (spells_raised_iff.mpr continued))))))
    exact writes_bareElse fits complete nextComplete whole
  | condition =>
    obtain ⟨_, _, _, rfl, ⟨left, leftFits, _, leftSpelled⟩, ⟨comparison, sign⟩,
      ⟨right, rightFits, _, rightSpelled⟩⟩ := forest_triple_iff.mp forest
    refine ⟨⟨left, comparison, right⟩, ⟨leftFits, rightFits⟩, ?_⟩
    exact (spells_raised_iff.mpr leftSpelled).append
      (sign.append (spells_raised_iff.mpr rightSpelled))
  | opLt => exact ⟨.lt, (forest_singleton_iff.mp forest).fixed rfl⟩
  | opGt => exact ⟨.gt, (forest_singleton_iff.mp forest).fixed rfl⟩
  | opEq => exact ⟨.eq, (forest_singleton_iff.mp forest).fixed rfl⟩
  | opNeq => exact ⟨.neq, (forest_singleton_iff.mp forest).fixed rfl⟩
  | repetition => exact writes_repetition forest
  | dataInt => exact ⟨.int, (forest_singleton_iff.mp forest).fixed rfl⟩
  | dataString => exact ⟨.string, (forest_singleton_iff.mp forest).fixed rfl⟩
  | dataFloat => exact ⟨.float, (forest_singleton_iff.mp forest).fixed rfl⟩
  | stepDecrement =>
    obtain ⟨_, _, rfl, sign, ⟨text, spelled⟩⟩ := forest_pair_iff.mp forest
    exact ⟨.decrement ⟨text⟩, trivial, (sign.fixed rfl).append spelled⟩
  | stepIncrement =>
    obtain ⟨_, _, rfl, sign, ⟨text, spelled⟩⟩ := forest_pair_iff.mp forest
    exact ⟨.increment ⟨text⟩, trivial, (sign.fixed rfl).append spelled⟩
  | stepAssign =>
    obtain ⟨assign, fits, spelled⟩ := forest_singleton_iff.mp forest
    exact ⟨.assign assign, fits, spelled⟩
  | declaration =>
    obtain ⟨_, _, rfl, ⟨dataType, typed⟩, ⟨assign, fits, spelled⟩⟩ := forest_pair_iff.mp forest
    exact ⟨.declaration dataType assign, fun kind neutral => ⟨fits, neutral.1⟩,
      typed.append spelled⟩
  | functionDecl => exact writes_functionDecl forest
  | name => exact forest_singleton_iff.mp forest
  | dataType => exact forest_singleton_iff.mp forest
  | parameterLast =>
    obtain ⟨_, _, rfl, ⟨dataType, typed⟩, ⟨name, named⟩⟩ := forest_pair_iff.mp forest
    exact ⟨[⟨dataType, ⟨name⟩⟩], by simp, typed.append named⟩
  | parameterCons =>
    obtain ⟨_, _, rfl, ⟨dataType, typed⟩, _, _, rfl, ⟨name, named⟩, _, _, rfl, separates, _, _,
      rfl, ⟨parameters, present, listed⟩, rfl⟩ := forest
    rw [List.append_nil]
    obtain ⟨second, others, rfl⟩ := List.exists_cons_of_ne_nil present
    exact ⟨⟨dataType, ⟨name⟩⟩ :: second :: others, by simp,
      typed.append (named.append ((separates.fixed rfl).append listed))⟩
  | functionCall =>
    obtain ⟨_, _, rfl, ⟨name, named⟩, _, _, rfl, opens, _, _, rfl,
      ⟨arguments, present, listed⟩, _, _, rfl, closes, rfl⟩ := forest
    rw [List.append_nil]
    exact ⟨.call ⟨name⟩ arguments, fun _ _ => present,
      named.append ((opens.fixed rfl).append (listed.append (closes.fixed rfl)))⟩

/-- Every production makes a written phrase from the written parts of its body. -/
theorem writes_of_production {production : Production} (listed : production ∈ productions)
    {tokens : List Token} (forest : Forest Symbol.Writes production.body tokens) :
    production.head.Writes tokens := by
  rcases List.mem_append.mp listed with named | braced
  · obtain ⟨rule, _, rfl⟩ := List.mem_map.mp named
    exact writes_of_rule rule forest
  · rcases List.mem_pair.mp braced with rfl | rfl
    · obtain ⟨_, _, rfl, isIf, _, _, rfl, opens, _, _, rfl, ⟨condition, fits, tested⟩, _, _, rfl,
        closes, _, _, rfl, begins, _, _, rfl, ⟨body, complete, spelled⟩, _, _, rfl, ends, rfl⟩ :=
        forest
      rw [List.append_nil]
      have whole : Spells _ (Link.last condition true body).content :=
        (isIf.fixed rfl).append ((opens.fixed rfl).append (tested.append
          ((closes.fixed rfl).append ((begins.fixed rfl).append
            ((spells_raised_iff.mpr spelled).append (ends.fixed rfl))))))
      exact writes_last fits complete whole
    · obtain ⟨_, _, rfl, isIf, _, _, rfl, opens, _, _, rfl, ⟨condition, fits, tested⟩, _, _, rfl,
        closes, _, _, rfl, begins, _, _, rfl, ⟨body, complete, spelled⟩, _, _, rfl, ends, _, _,
        rfl, isElse, _, _, rfl, ⟨next, nextComplete, continued⟩, rfl⟩ := forest
      rw [List.append_nil]
      have whole := (isIf.fixed rfl).append ((opens.fixed rfl).append (tested.append
        ((closes.fixed rfl).append ((begins.fixed rfl).append
          ((spells_raised_iff.mpr spelled).append ((ends.fixed rfl).append
            ((isElse.fixed rfl).append (spells_raised_iff.mpr continued))))))))
      apply writes_bracedElse fits complete nextComplete
      simpa [Link.content, enclosed] using whole

/-- Tokens that are derived from a phrase write one down. -/
theorem writes_of_derives {phrase : Nonterminal} {tokens : List Token}
    (derives : Derives [.nonterminal phrase] tokens) : phrase.Writes tokens := by
  have single (token : Token) : Symbol.Writes (.terminal token.kind) [token] :=
    ⟨token, rfl, rfl⟩
  have forest : Forest Symbol.Writes [.nonterminal phrase] tokens :=
    forest_of_derives single (fun _ listed _ forest => writes_of_production listed forest) derives
  exact forest_singleton_iff.mp forest

/-- Tokens that are derived from a program write one down. -/
theorem exists_body_of_derives {tokens : List Token}
    (derives : Derives [.nonterminal .program] tokens) :
    ∃ body : Body, body.Placed .endWord ∧ Spells tokens body.programMarks :=
  writes_of_derives derives

end StartEnd
