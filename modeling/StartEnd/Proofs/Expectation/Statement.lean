import StartEnd.Parse.Program
import StartEnd.Proofs.Expectation.Expression

/-!
# What is expected in statements

A statement is expected from its first token on. Behind a statement it may be asked for
another statement, for an operator that goes on with its last expression, and for the `else`
of its last `if`. A body ends before a token that is none of these, and what closes the
body is then named together with all that begins a statement.
-/

namespace StartEnd.Parse

open Replay (derives_terminal)

/-- The kinds that are asked for behind a statement. -/
def afterStatement : List Token.Kind := Nonterminal.concept.first ++ .elseWord :: operatorKinds

/-- The parsers of constructs and their twins expect expressions, bodies and `if` links. -/
structure ExpectsNested (steps : Nat) (inner twin : Nested) : Prop where
  bound : inner.steps = steps
  rounds : steps ≤ twin.steps
  expr : ExpectsExprs steps inner.expr twin.expr
  body : Expects steps AnyKind [.openCurly] inner.body twin.body (Derives [.nonterminal .body])
    afterStatement
  branch : ∀ {fact : Token.Kind → Prop} {asked : List Token.Kind},
    (∀ kind, fact kind → kind ≠ .ifWord → asked ⊆ wanted [.ifWord]) →
    Expects steps fact asked inner.branch twin.branch (Derives [.nonterminal .branch])
      afterStatement

variable {α : Type} {steps : Nat} {fact : Token.Kind → Prop} {asked left : List Token.Kind}
  {phrase : List Token → Prop} {inner twin : Nested}

/-- A name is expected. -/
theorem identifier_expects
    (named : ∀ kind, fact kind → kind ≠ .identifier → asked ⊆ wanted [.identifier]) :
    Expects steps fact asked identifier identifier (Derives [.nonterminal .id]) [] := by
  apply Expects.produce .id
  refine Expects.expect (by decide) named fun _ _ => ?_
  exact Expects.reduce (Expects.finish (List.nil_subset _))

/-- The name of a function is expected. -/
theorem functionName_expects :
    Expects steps AnyKind [] functionName functionName (Derives [.nonterminal .name]) [] := by
  apply Expects.produce .name
  refine (identifier_expects fun _ _ _ => List.nil_subset _).call fun _ => ?_
  exact Expects.reduce (Expects.finish (List.nil_subset _))

/-- The words for data types are the kinds that begin one. -/
theorem standard_dataType_iff {kind : Token.Kind} :
    Tables.standard.dataType kind = true ↔ kind ∈ Nonterminal.data.first := by
  rw [first_data]
  cases kind <;> decide

/-- The word for a data type is consumed. -/
theorem dataTypeKeyword_expects {kind : Token.Kind} (listed : kind ∈ Nonterminal.data.first) :
    Expects steps (· = kind) asked dataTypeKeyword dataTypeKeyword (Derives [.nonterminal .data])
      [] := by
  obtain ⟨dataType, rfl⟩ : ∃ dataType : DataType, kind = dataType.kind := by
    rw [first_data] at listed
    simp only [List.mem_cons, List.not_mem_nil, or_false] at listed
    rcases listed with rfl | rfl | rfl
    · exact ⟨.float, rfl⟩
    · exact ⟨.int, rfl⟩
    · exact ⟨.string, rfl⟩
  refine Expects.consume ?_ ?_ fun token same => ?_
  · rintro _ rfl
    cases dataType <;> decide
  · intro token same
    cases dataType
    · exact derives_of_body (production_mem .dataInt) (derives_terminal same)
    · exact derives_of_body (production_mem .dataString) (derives_terminal same)
    · exact derives_of_body (production_mem .dataFloat) (derives_terminal same)
  · have found : DataType.ofKind? token.kind = some dataType :=
      (DataType.ofKind?_eq_some_iff _ _).mpr same
    simp only [found]
    exact Expects.reduce (Expects.finish (List.nil_subset _))

/-- A data type is expected. -/
theorem dataType_expects
    (named : ∀ kind, fact kind → kind ∉ Nonterminal.data.first →
      asked ⊆ wanted Nonterminal.data.first) :
    Expects steps fact asked dataType dataType (Derives [.nonterminal .data]) [] := by
  unfold dataType
  refine Expects.select .data (by rw [first_data]; decide) (fun _ opens => opens) named ?_ ?_ ?_
  · intro kind absent
    refine same_tables fun state standard => ?_
    rw [standard, if_neg (standard_dataType_iff.not.mpr absent)]
  · intro kind absent
    refine same_tables fun state standard => ?_
    rw [standard, if_neg (standard_dataType_iff.not.mpr absent)]
  · intro kind listed _
    refine (dataTypeKeyword_expects listed).congr (same_tables fun state standard => ?_)
      (same_tables fun state standard => ?_)
    all_goals rw [standard, if_pos (standard_dataType_iff.mpr listed)]

/-- An assignment is expected. -/
theorem assign_expects {parser twin : ExprParser} (expects : ExpectsExprs steps parser twin)
    (named : ∀ kind, fact kind → kind ≠ .identifier → asked ⊆ wanted [.identifier]) :
    Expects steps fact asked (assign parser) (assign twin) (Derives [.nonterminal .assign])
      operatorKinds := by
  apply Expects.produce .assign
  refine (identifier_expects named).call fun _ => ?_
  refine Expects.expectNext (by decide) fun _ _ => ?_
  refine (expects .lowest).call fun _ => ?_
  exact Expects.reduce (Expects.finish fun _ inside => inside)

/-- A typed name is expected. -/
theorem parameter_expects :
    Expects steps AnyKind [] parameter parameter
      (Derives [.nonterminal .data, .nonterminal .id]) [] := by
  refine (dataType_expects fun _ _ _ => List.nil_subset _).call fun _ => ?_
  refine (identifier_expects fun _ _ _ => List.nil_subset _).call fun _ => ?_
  exact Expects.finish (List.nil_subset _)

/-- Tokens that go on with a typed name to a list of them. -/
def ContinuesParameter (tokens : List Token) : Prop :=
  ∀ front, Derives [.nonterminal .data, .nonterminal .id] front →
    Derives [.nonterminal .parameter] (front ++ tokens)

/-- Typed names behind the first one, at most the given number of them. -/
def parametersBehind : Nat → Parameter → Parse (List Parameter)
  | 0, first => return [first]
  | count + 1, first => do
    if (← currentKind) = .comma then
      let _ ← advance
      return first :: (← parametersWithin count)
    else return [first]

/-- Typed names are the first one and those behind it. -/
theorem parametersWithin_eq (count : Nat) :
    parametersWithin count = parameter >>= parametersBehind count := by
  cases count <;> rfl

/-- A typed name alone is a list of them. -/
theorem continuesParameter_nil : ContinuesParameter [] := by
  intro front derives
  rw [List.append_nil]
  exact derives_of_body (production_mem .parameterLast) derives

/-- A comma and typed names go on with a typed name. -/
theorem ContinuesParameter.comma {token : Token} (separates : token.kind = .comma)
    {more : List Token} (derives : Derives [.nonterminal .parameter] more) :
    ContinuesParameter (token :: more) := by
  intro front early
  exact derives_of_body (production_mem .parameterCons)
    (early.append ((derives_terminal separates).append derives))

/-- Typed names are expected if what goes on behind the first one is. -/
theorem parametersWithin_expects_of_behind {count more : Nat}
    (behind : ∀ first, Expects count AnyKind [.comma] (parametersBehind count first)
      (parametersBehind more first) ContinuesParameter [.comma]) :
    Expects count AnyKind [] (parametersWithin count) (parametersWithin more)
      (Derives [.nonterminal .parameter]) [.comma] := by
  rw [parametersWithin_eq, parametersWithin_eq]
  refine parameter_expects.bind (fun first => (behind first).weaken (Nat.le_refl _)
    (fun _ known => known) (List.nil_subset _)) ⟨[], continuesParameter_nil⟩ ?_
  exact fun opening _ derives continues => continues opening derives

/-- A list of typed names stops where no comma follows, whether or not it has rounds left. -/
theorem parametersBehind_stops (count : Nat) (first : Parameter) :
    StopsAt (· ≠ .comma) (parametersBehind count first) (pure [first]) := by
  cases count with
  | zero => exact StopsAt.refl _ _
  | succ count =>
    refine StopsAt.look fun kind other state _ => ?_
    rw [if_neg other]

/-- A list of typed names goes on behind the first one if it does so at a comma. -/
theorem parametersBehind_expects_of_comma {count more : Nat} {first : Parameter}
    (goes_on : Expects steps (fun kind => ¬ kind ≠ .comma) [.comma] (parametersBehind count first)
      (parametersBehind more first) ContinuesParameter [.comma]) :
    Expects steps AnyKind [.comma] (parametersBehind count first) (parametersBehind more first)
      ContinuesParameter [.comma] :=
  Expects.loop (· ≠ .comma) (fun _ => List.mem_singleton.not.mp) (parametersBehind_stops _ _)
    (parametersBehind_stops _ _) (Expects.pure continuesParameter_nil fun _ inside => inside)
    goes_on

/-- Behind a typed name a comma may follow. The induction is over the rounds. -/
theorem parametersBehind_expects {count more : Nat} (rounds : count ≤ more) (first : Parameter) :
    Expects count AnyKind [.comma] (parametersBehind count first) (parametersBehind more first)
      ContinuesParameter [.comma] := by
  induction count generalizing more first with
  | zero =>
    exact parametersBehind_expects_of_comma (Expects.ended fun isComma => isComma (by decide))
  | succ count inductionHypothesis =>
    obtain ⟨further, rfl⟩ : ∃ further, more = further + 1 := ⟨more - 1, by omega⟩
    apply parametersBehind_expects_of_comma
    unfold parametersBehind
    refine Expects.inspect fun kind holds => ?_
    obtain rfl : kind = .comma := not_not.mp holds
    rw [if_pos rfl, if_pos rfl]
    refine Expects.advanceFewer (fun _ same => same ▸ by decide) fun token same => ?_
    have others := parametersWithin_expects_of_behind fun first =>
      inductionHypothesis (Nat.le_of_succ_le_succ rounds) first
    have listed := others.mono (fun _ inside => inside) fun _ derives =>
      ContinuesParameter.comma same derives
    exact listed.afterwards fun _ => Expects.pure rfl fun _ inside => inside

/-- Typed names are expected. -/
theorem parameters_expects {count more : Nat} (bound : count = steps) (rounds : steps ≤ more) :
    Expects steps AnyKind [] (parameters count) (parameters more)
      (Derives [.nonterminal .parameter]) [.comma] := by
  subst bound
  refine (parametersWithin_expects_of_behind (parametersBehind_expects rounds)).call fun _ => ?_
  exact Expects.reduce (Expects.reduceTimes (Expects.finish fun _ inside => inside))

/-- A declaration is expected where a word for a data type stands. -/
theorem declaration_expects (expects : ExpectsNested steps inner twin)
    (typed : ∀ kind, fact kind → kind ∈ Nonterminal.data.first) :
    Expects steps fact asked (declaration inner) (declaration twin)
      (Derives [.nonterminal .declaration]) operatorKinds := by
  apply Expects.produce .declaration
  refine (dataType_expects fun kind holds absent => absurd (typed kind holds) absent).call
    fun _ => ?_
  refine (assign_expects expects.expr fun _ _ _ => List.nil_subset _).call fun _ => ?_
  exact Expects.reduce (Expects.finish fun _ inside => inside)

/-- The kinds that close a body. -/
def closings : List Token.Kind := [.endWord, .closeCurly, .retWord]

/-- What a fault at the end of a body does not name. -/
theorem omitted_bodyEnd {closing : Token.Kind} (closes : closing ∈ closings) :
    omitted (bodyEnd closing) = .elseWord :: operatorKinds := by
  unfold omitted bodyEnd
  rw [first_concept, first_op]
  revert closing
  decide

/-- The kinds at the end of a body are listed in their order. -/
theorem bodyEnd_increasing {closing : Token.Kind} (closes : closing ∈ closings) :
    (bodyEnd closing).Pairwise fun left right => left.rank < right.rank := by
  unfold bodyEnd
  rw [first_concept]
  revert closing
  decide

/-- At the end of a body stands what begins a statement, or what closes the body. -/
theorem mem_bodyEnd_iff {closing kind : Token.Kind} :
    kind ∈ bodyEnd closing ↔ kind ∈ Nonterminal.concept.first ∨ kind = closing := by
  rw [bodyEnd, (Token.Kind.sort_perm _).mem_iff, List.mem_append, List.mem_singleton]

/-- A fault at the end of a body names all that may stand behind a statement there. -/
theorem afterStatement_subset_wanted {closing : Token.Kind} (closes : closing ∈ closings) :
    afterStatement ⊆ wanted (bodyEnd closing) := by
  unfold wanted afterStatement
  rw [omitted_bodyEnd closes]
  refine List.append_subset.mpr ⟨fun kind begins => ?_, List.subset_append_right _ _⟩
  exact List.mem_append_left _ (mem_bodyEnd_iff.mpr (.inl begins))

/-- Tokens that go on with any body to a closed one. -/
def ClosesBody (closing : Token.Kind) (symbols : List Symbol) (tokens : List Token) : Prop :=
  ∀ front, Derives [.nonterminal .body] front →
    Derives (.nonterminal .body :: .terminal closing :: symbols) (front ++ tokens)

/-- The closing token and what is derived behind it close a body. -/
theorem closesBody_closing {closing : Token.Kind} {symbols : List Symbol} {token : Token}
    {more : List Token} (same : token.kind = closing) (derives : Derives symbols more) :
    ClosesBody closing symbols (token :: more) :=
  fun _ body => body.append ((derives_terminal same).append derives)

/-- A statement and what closes a body close a body. -/
theorem ClosesBody.statement {closing : Token.Kind} {symbols : List Symbol}
    {statement more : List Token} (derives : Derives [.nonterminal .concept] statement)
    (closes : ClosesBody closing symbols more) :
    ClosesBody closing symbols (statement ++ more) := by
  intro front body
  have single := derives_of_body (production_mem .bodySingle) derives
  have longer := closes _ (derives_body_append body single)
  rwa [List.append_assoc] at longer

/-- A body may be closed by some token. -/
theorem exists_closesBody (closing : Token.Kind) (symbols : List Symbol) :
    ∃ token more, token.kind = closing ∧ ClosesBody closing symbols (token :: more) := by
  obtain ⟨more, derives⟩ := exists_derives symbols
  exact ⟨.bare closing, more, rfl, closesBody_closing rfl derives⟩

/-- At the end of a body the closing token is wanted, or another statement. -/
theorem expectBodyEnd_expects {closing : Token.Kind} {symbols : List Symbol}
    {second secondTwin : Token → Parse α} (closes : closing ∈ closings)
    (rest : ∀ token, token.kind = closing → Expects steps AnyKind [] (second token)
      (secondTwin token) (Derives symbols) left) :
    Expects steps AnyKind afterStatement (expectBodyEnd closing >>= second)
      (expectBodyEnd closing >>= secondTwin) (ClosesBody closing symbols) left := by
  have visible : closing ≠ .endOfInput := by
    rintro rfl
    exact absurd closes (by decide)
  have listed : closing ∈ bodyEnd closing := mem_bodyEnd_iff.mpr (.inr rfl)
  have awaited : Awaited (ClosesBody closing symbols) [] (bodyEnd closing) := by
    refine ⟨List.ne_nil_of_mem listed, bodyEnd_increasing closes, fun kind inside => ?_⟩
    obtain ⟨last, more, isClosing, closed⟩ := exists_closesBody closing symbols
    rcases mem_bodyEnd_iff.mp inside with begins | rfl
    · obtain ⟨token, others, same, derives⟩ := opens_of_mem_first begins
      have continued : ClosesBody closing symbols ((token :: others) ++ last :: more) :=
        ClosesBody.statement derives closed
      exact ⟨token, others ++ last :: more, same, continued⟩
    · exact ⟨last, more, isClosing, closed⟩
  have demanded : Expects (steps + 1) AnyKind afterStatement (expectBodyEnd closing >>= second)
      (expectBodyEnd closing >>= secondTwin) (ClosesBody closing symbols) left := by
    unfold expectBodyEnd
    rw [bind_assoc, bind_assoc]
    exact Expects.demand visible listed awaited
      (fun _ _ _ => afterStatement_subset_wanted closes) fun token same =>
        (rest token same).mono (fun _ inside => inside) fun _ => closesBody_closing same
  exact demanded.weaken (Nat.le_succ steps) (fun _ known => known) fun _ inside => inside

/-- A body and its closing token are expected. -/
theorem closedBody_expects {parser parserTwin : Parse Block} {closing : Token.Kind}
    {symbols : List Symbol} {second secondTwin : Block → Token → Parse α}
    (body : Expects steps AnyKind [.openCurly] parser parserTwin (Derives [.nonterminal .body])
      afterStatement)
    (closes : closing ∈ closings)
    (rest : ∀ value token, token.kind = closing → Expects steps AnyKind [] (second value token)
      (secondTwin value token) (Derives symbols) left) :
    Expects steps AnyKind []
      (do
        let value ← parser
        let token ← expectBodyEnd closing
        second value token)
      (do
        let value ← parserTwin
        let token ← expectBodyEnd closing
        secondTwin value token)
      (Derives (.nonterminal .body :: .terminal closing :: symbols)) left := by
  have opened := body.weaken (Nat.le_refl _) (fun _ known => known) (List.nil_subset _)
  obtain ⟨last, more, _, closed⟩ := exists_closesBody closing symbols
  exact opened.bind (fun value => expectBodyEnd_expects closes (rest value)) ⟨_, closed⟩
    fun opening _ derives closes => closes opening derives

/-- The advance of a loop is expected. -/
theorem step_expects (expects : ExpectsNested steps inner twin) :
    Expects steps AnyKind [] (step inner) (step twin) (Derives [.nonterminal .step])
      operatorKinds := by
  unfold step
  refine Expects.select .step (by rw [first_step]; decide) (fun _ opens => opens)
    (fun _ _ _ => List.nil_subset _) ?_ ?_ ?_
  · intro kind absent state _
    rw [first_step] at absent
    cases kind <;> first | rfl | exact absurd (by decide) absent
  · intro kind absent state _
    rw [first_step] at absent
    cases kind <;> first | rfl | exact absurd (by decide) absent
  · intro kind listed _
    rw [first_step] at listed
    simp only [List.mem_cons, List.not_mem_nil, or_false] at listed
    rcases listed with rfl | rfl | rfl
    · apply Expects.produce .stepAssign
      refine (assign_expects expects.expr fun _ same other => absurd same other).call fun _ => ?_
      exact Expects.reduce (Expects.finish fun _ inside => inside)
    · apply Expects.produce .stepDecrement
      refine Expects.consume (fun _ same => same ▸ by decide) (fun _ => derives_terminal)
        fun _ _ => ?_
      refine (identifier_expects fun _ _ _ => List.nil_subset _).call fun _ => ?_
      exact Expects.reduce (Expects.finish (List.nil_subset _))
    · apply Expects.produce .stepIncrement
      refine Expects.consume (fun _ same => same ▸ by decide) (fun _ => derives_terminal)
        fun _ _ => ?_
      refine (identifier_expects fun _ _ _ => List.nil_subset _).call fun _ => ?_
      exact Expects.reduce (Expects.finish (List.nil_subset _))

/-- A loop is expected where its word stands. -/
theorem repetition_expects (expects : ExpectsNested steps inner twin) :
    Expects steps (· = .repWord) asked (repetition inner) (repetition twin)
      (Derives [.nonterminal .repetition]) [] := by
  apply Expects.produce .repetition
  refine Expects.expectKnown (by decide) fun _ _ => ?_
  refine Expects.expectNext (by decide) fun _ _ => ?_
  refine (dataType_expects fun _ _ _ => List.nil_subset _).call fun _ => ?_
  refine (assign_expects expects.expr fun _ _ _ => List.nil_subset _).call fun _ => ?_
  refine Expects.expect (by decide) (fun _ _ _ => by decide) fun _ _ => ?_
  refine (condition_expects expects.expr).call fun _ => ?_
  refine Expects.expect (by decide) (fun _ _ _ => by decide) fun _ _ => ?_
  refine (step_expects expects).call fun _ => ?_
  refine Expects.expect (by decide) (fun _ _ _ => by decide) fun _ _ => ?_
  refine Expects.expectNext (by decide) fun _ _ => ?_
  refine closedBody_expects expects.body (by decide) fun _ _ _ => ?_
  exact Expects.reduce (Expects.finish (List.nil_subset _))

/-- A function is expected where its word stands. -/
theorem function_expects (expects : ExpectsNested steps inner twin) :
    Expects steps (· = .funcWord) asked (function inner) (function twin)
      (Derives [.nonterminal .functionDecl]) [] := by
  apply Expects.produce .functionDecl
  refine Expects.expectKnown (by decide) fun _ _ => ?_
  have returnType : Expects steps AnyKind [] dataType dataType (Derives [.nonterminal .dataType])
      [] :=
    Expects.produce .dataType (dataType_expects fun _ _ _ => List.nil_subset _)
  refine returnType.call fun _ => Expects.reduce ?_
  refine functionName_expects.call fun _ => ?_
  refine Expects.expectNext (by decide) fun _ _ => ?_
  refine (parameters_expects expects.bound expects.rounds).call fun _ => ?_
  refine Expects.expect (by decide) (fun _ _ _ => by decide) fun _ _ => ?_
  refine Expects.expectNext (by decide) fun _ _ => ?_
  refine closedBody_expects expects.body (by decide) fun _ _ _ => ?_
  refine (identifier_expects fun _ _ _ => List.nil_subset _).call fun _ => ?_
  refine Expects.expectNext (by decide) fun _ _ => ?_
  exact Expects.reduce (Expects.finish (List.nil_subset _))

/-- The symbols of an `if` up to its body. -/
def guardSymbols : List Symbol :=
  [.terminal .ifWord, .terminal .openParen, .nonterminal .condition, .terminal .closeParen]

/-- The part of an `if` up to its body. -/
def guard (expr : ExprParser) : Parse Condition := do
  let _ ← expect .ifWord
  let _ ← expect .openParen
  let condition ← condition expr
  let _ ← expect .closeParen
  return condition

/-- The part of an `if` behind its condition. -/
def branchBehind (inner : Nested) (condition : Condition) : Parse Branch := do
  let body ← branchBody inner
  if (← currentKind) = .elseWord then
    let _ ← advance
    let next ← inner.branch
    reduce .branchElse
    return .orElse condition body next
  else
    reduce .branchThen
    return .last condition body

/-- An `if` is its condition and what stands behind it. -/
theorem branchContent_eq (inner : Nested) :
    branchContent inner = guard inner.expr >>= branchBehind inner := by
  simp only [branchContent, guard, branchBehind, bind_assoc, pure_bind]

/-- The condition of an `if` is expected. -/
theorem guard_expects {parser parserTwin : ExprParser}
    (expects : ExpectsExprs steps parser parserTwin)
    (named : ∀ kind, fact kind → kind ≠ .ifWord → asked ⊆ wanted [.ifWord]) :
    Expects steps fact asked (guard parser) (guard parserTwin) (Derives guardSymbols) [] := by
  refine Expects.expect (by decide) named fun _ _ => ?_
  refine Expects.expectNext (by decide) fun _ _ => ?_
  refine (condition_expects expects).call fun _ => ?_
  refine Expects.expect (by decide) (fun _ _ _ => by decide) fun _ _ => ?_
  exact Expects.finish (List.nil_subset _)

/-- The body of an `if`, with or without braces. -/
def IsBranchBody (tokens : List Token) : Prop :=
  Derives [.nonterminal .body] tokens ∨
    Derives [.terminal .openCurly, .nonterminal .body, .terminal .closeCurly] tokens

/-- The body of an `if` is expected, with or without braces. -/
theorem branchBody_expects (expects : ExpectsNested steps inner twin) :
    Expects steps AnyKind [] (branchBody inner) (branchBody twin) IsBranchBody afterStatement := by
  unfold branchBody
  refine Expects.either ?_ ?_
  · have braced : Expects steps (· = .openCurly) Token.Kind.all
        (do
          let _ ← advance
          let body ← inner.body
          let _ ← expectBodyEnd .closeCurly
          return body)
        (do
          let _ ← advance
          let body ← twin.body
          let _ ← expectBodyEnd .closeCurly
          return body)
        (Derives [.terminal .openCurly, .nonterminal .body, .terminal .closeCurly]) [] := by
      refine Expects.consume (fun _ same => same ▸ by decide) (fun _ => derives_terminal)
        fun _ _ => ?_
      exact closedBody_expects expects.body (by decide) fun _ _ _ =>
        Expects.finish (List.nil_subset _)
    exact braced.mono (List.nil_subset _) fun _ => .inr
  · have bare : Expects steps AnyKind [.openCurly] inner.body twin.body IsBranchBody
        afterStatement :=
      expects.body.mono (fun _ inside => inside) fun _ => .inl
    exact bare.weaken (Nat.le_refl _) (fun _ _ => trivial) fun _ inside => inside

/-- Tokens that go on with any condition and body of an `if`. -/
def ContinuesBranch (tokens : List Token) : Prop :=
  ∀ opening body, Derives guardSymbols opening → IsBranchBody body →
    Derives [.nonterminal .branch] (opening ++ (body ++ tokens))

/-- An `if` may end behind its body. -/
theorem continuesBranch_nil : ContinuesBranch [] := by
  intro opening body guarded isBody
  rw [List.append_nil]
  rcases isBody with bare | braced
  · exact derives_of_body (production_mem .branchThen) (guarded.append bare)
  · exact derives_of_body (by decide : Production.bracedThen ∈ productions) (guarded.append braced)

/-- Another `if` goes on with an `if` behind `else`. -/
theorem continuesBranch_else {token : Token} {next : List Token} (isElse : token.kind = .elseWord)
    (derives : Derives [.nonterminal .branch] next) : ContinuesBranch (token :: next) := by
  intro opening body guarded isBody
  have chained := (derives_terminal isElse).append derives
  rcases isBody with bare | braced
  · exact derives_of_body (production_mem .branchElse) (guarded.append (bare.append chained))
  · exact derives_of_body (by decide : Production.bracedElse ∈ productions)
      (guarded.append (braced.append chained))

/-- Behind its body an `if` may end or go on with `else`. -/
theorem branchEnd_expects (expects : ExpectsNested steps inner twin) (condition : Condition)
    (body : Block) :
    Expects steps AnyKind afterStatement
      (do
        if (← currentKind) = .elseWord then
          let _ ← advance
          let next ← inner.branch
          reduce .branchElse
          return .orElse condition body next
        else
          reduce .branchThen
          return Branch.last condition body)
      (do
        if (← currentKind) = .elseWord then
          let _ ← advance
          let next ← twin.branch
          reduce .branchElse
          return .orElse condition body next
        else
          reduce .branchThen
          return Branch.last condition body)
      ContinuesBranch afterStatement := by
  refine Expects.either ?_ (Expects.reduce (Expects.pure continuesBranch_nil ?_))
  · have chained : Expects (steps + 1) (· = .elseWord) Token.Kind.all
        (do
          let _ ← advance
          let next ← inner.branch
          reduce .branchElse
          return Branch.orElse condition body next)
        (do
          let _ ← advance
          let next ← twin.branch
          reduce .branchElse
          return Branch.orElse condition body next)
        ContinuesBranch afterStatement := by
      refine Expects.advanceFewer (fun _ same => same ▸ by decide) fun token isElse => ?_
      have next : Expects steps AnyKind [] inner.branch twin.branch
          (fun back => ContinuesBranch (token :: back)) afterStatement :=
        (expects.branch fun _ _ _ => List.nil_subset _).mono (fun _ inside => inside)
          fun _ => continuesBranch_else isElse
      exact next.afterwards fun _ =>
        Expects.reduce (Expects.pure rfl fun _ inside => inside)
    exact chained.weaken (Nat.le_succ steps) (fun _ same => same) fun _ inside => inside
  · refine List.append_subset.mpr ⟨fun _ inside => inside, ?_⟩
    refine List.cons_subset.mpr ⟨?_, List.nil_subset _⟩
    exact List.mem_append_right _ List.mem_cons_self

/-- The content of an `if` link is expected. -/
theorem branchContent_expects (expects : ExpectsNested steps inner twin)
    (named : ∀ kind, fact kind → kind ≠ .ifWord → asked ⊆ wanted [.ifWord]) :
    Expects steps fact asked (branchContent inner) (branchContent twin)
      (Derives [.nonterminal .branch]) afterStatement := by
  have behind (condition : Condition) : Expects steps AnyKind [] (branchBehind inner condition)
      (branchBehind twin condition)
      (fun tokens => ∀ opening, Derives guardSymbols opening →
        Derives [.nonterminal .branch] (opening ++ tokens)) afterStatement :=
    (branchBody_expects expects).bind (branchEnd_expects expects condition)
      ⟨[], continuesBranch_nil⟩ fun body _ isBody continues opening guarded =>
        continues opening body guarded isBody
  obtain ⟨body, derives⟩ := exists_derives [.nonterminal .body]
  rw [branchContent_eq, branchContent_eq]
  refine (guard_expects expects.expr named).bind behind ⟨body, fun opening guarded => ?_⟩
    fun opening _ guarded continues => continues opening guarded
  have whole := continuesBranch_nil opening body guarded (.inl derives)
  rwa [List.append_nil] at whole

/-- An assignment or a call behind its name, as the token there tells. -/
def identifierBehind (inner : Nested) (name : Identifier) : Token.Kind → Parse Stmt
  | .assignment => do
    let _ ← expect .assignment
    let value ← inner.expr .lowest
    reduce .assign
    return .assign { target := name, value := value }
  | _ => do
    reduce .name
    let _ ← expect .openParen
    let arguments ← parameters inner.steps
    let _ ← expect .closeParen
    reduce .functionCall
    return .call name arguments

/-- A name is consumed although the token behind it was looked at. -/
theorem identifier_moves {state : State} {tokens : Stream' Token} (stands : state.Stands tokens)
    (isName : tokens.head.kind = .identifier) :
    ∃ looked named, runOn (peek 1) state = (.ok tokens.tail.head, looked) ∧
      looked.pulled = state.consumed + 2 ∧
      runOn identifier looked = (.ok ⟨tokens.head.value⟩, named) ∧
      state.Moves [tokens.head] tokens.tail named := by
  obtain ⟨looked, ran, alike, faces⟩ := peek_faces 1 stands.ready stands.faces
  obtain ⟨again, ranAgain, alikeAgain, facesAgain⟩ := peek_faces 0 alike.ready faces
  obtain ⟨after, advanced, consumes, rest⟩ := advance_faces alikeAgain.ready facesAgain
  have bound := stands.looked
  have two : looked.lookahead.length = 2 := by
    rw [length_peek 1 stands.ready ran]
    omega
  have one : after.lookahead.length = 1 := by
    rw [length_advance alikeAgain.ready advanced, length_peek 0 alike.ready ranAgain, two]
    rfl
  have consumed : looked.consumed = state.consumed := alike.consumed stands.faces.clean
  refine ⟨looked, { after with log := .id :: after.log }, ran, ?_, ?_, ?_⟩
  · have counted := alike.ready.counted
    unfold State.consumed at consumed ⊢
    omega
  · have head : (tokens.get 0).kind = .identifier := isName
    simp only [identifier, expect, currentKind, current, runOn_bind, ranAgain, runOn_pure, head,
      ↓reduceIte, advanced]
    rfl
  · have whole := alike.trans (alikeAgain)
    have consumes := whole.trans_consumes consumes
    have visible : tokens.head.kind ≠ .endOfInput := isName ▸ by decide
    exact ⟨⟨⟨consumes.ready.standard, consumes.ready.counted⟩, rest, one.le⟩, consumes.depth,
      consumes.consumed stands.faces.clean, consumes.unread visible⟩

/-- The token behind a name tells an assignment from a call. -/
theorem identifierStmt_run {state : State} {tokens : Stream' Token} (stands : state.Stands tokens)
    (isName : tokens.head.kind = .identifier)
    (tells : tokens.tail.head.kind ∈ [Token.Kind.openParen, .assignment]) :
    ∃ named, state.Moves [tokens.head] tokens.tail named ∧ runOn (identifierStmt inner) state =
      runOn (identifierBehind inner ⟨tokens.head.value⟩ tokens.tail.head.kind) named := by
  obtain ⟨looked, named, peeked, _, ran, moves⟩ := identifier_moves stands isName
  refine ⟨named, moves, ?_⟩
  simp only [List.mem_cons, List.not_mem_nil, or_false] at tells
  unfold identifierStmt
  rw [runOn_bind, peeked]
  rcases tells with isCall | isAssign
  · simp only [isCall, call, functionName, bind_assoc, pure_bind]
    rw [runOn_bind, ran]
    rfl
  · simp only [isAssign, assign, bind_assoc, pure_bind]
    rw [runOn_bind, ran]
    rfl

/-- Behind a name an assignment or a call is wanted. -/
theorem identifierStmt_faults {state : State} {tokens : Stream' Token}
    (stands : state.Stands tokens) (isName : tokens.head.kind = .identifier)
    (other : tokens.tail.head.kind ∉ [Token.Kind.openParen, .assignment]) :
    ∃ after, runOn (identifierStmt inner) state =
      (.error (Fault.unexpected tokens.tail.head [.openParen, .assignment]), after) ∧
      after.pulled = state.consumed + 2 := by
  obtain ⟨looked, _, peeked, pulled, _⟩ := identifier_moves stands isName
  refine ⟨looked, ?_, pulled⟩
  unfold identifierStmt
  rw [runOn_bind, peeked]
  simp only [List.mem_cons, List.not_mem_nil, or_false, not_or] at other
  dsimp only
  split
  · exact absurd ‹_› other.2
  · exact absurd ‹_› other.1
  · rfl

/-- What an assignment or a call has behind its name and the token that tells them apart. -/
def behindName : Token.Kind → List Symbol
  | .assignment => [.nonterminal .expr]
  | _ => [.nonterminal .parameter, .terminal .closeParen]

/-- A name and what is derived behind it are a statement. -/
theorem derives_concept_of_name {token : Token} (isName : token.kind = .identifier)
    {kind : Token.Kind} (tells : kind ∈ [Token.Kind.openParen, .assignment]) {more : List Token}
    (derives : Derives (.terminal kind :: behindName kind) more) :
    Derives [.nonterminal .concept] (token :: more) := by
  have name : Derives [.nonterminal .id] [token] :=
    derives_of_body (production_mem .id) (derives_terminal isName)
  simp only [List.mem_cons, List.not_mem_nil, or_false] at tells
  rcases tells with rfl | rfl
  · have named := derives_of_body (production_mem .name) name
    have call := derives_of_body (production_mem .functionCall) (named.append derives)
    exact derives_of_body (production_mem .conceptFunctionCall) call
  · have assign := derives_of_body (production_mem .assign) (name.append derives)
    exact derives_of_body (production_mem .conceptAssign) assign

/-- What stands behind the name of an assignment or a call is expected. -/
theorem identifierBehind_expects (expects : ExpectsNested steps inner twin) (name : Identifier)
    {kind : Token.Kind} (tells : kind ∈ [Token.Kind.openParen, .assignment]) :
    Expects steps (· = kind) Token.Kind.all (identifierBehind inner name kind)
      (identifierBehind twin name kind) (Derives (.terminal kind :: behindName kind))
      operatorKinds := by
  simp only [List.mem_cons, List.not_mem_nil, or_false] at tells
  rcases tells with rfl | rfl
  · refine Expects.reduce ?_
    refine Expects.expectKnown (by decide) fun _ _ => ?_
    refine (parameters_expects expects.bound expects.rounds).call fun _ => ?_
    refine Expects.expect (by decide) (fun _ _ _ => by decide) fun _ _ => ?_
    exact Expects.reduce (Expects.finish (List.nil_subset _))
  · refine Expects.expectKnown (by decide) fun _ _ => ?_
    refine (expects.expr .lowest).call fun _ => ?_
    exact Expects.reduce (Expects.finish fun _ inside => inside)

/-- An assignment or a call is expected where a name stands. The token behind the name is
looked at before the name is consumed, so a fault there is met with nothing consumed. -/
theorem identifierStmt_expects (expects : ExpectsNested steps inner twin) :
    Expects steps (· = .identifier) asked (identifierStmt inner) (identifierStmt twin)
      (Derives [.nonterminal .concept]) operatorKinds := by
  intro state tokens stands few isName
  have split : tokens = [tokens.head] ++ₛ tokens.tail := (Stream'.eta tokens).symm
  by_cases tells : tokens.tail.head.kind ∈ [Token.Kind.openParen, .assignment]
  · obtain ⟨named, moves, ran⟩ := identifierStmt_run stands isName tells
    have fewer : named.unread ≤ steps := by
      have counted := moves.unread
      omega
    have behind := (identifierBehind_expects expects ⟨tokens.head.value⟩ tells).mono
      (fun _ inside => inside) fun _ => derives_concept_of_name isName tells
    have outcome := behind named tokens.tail moves.stands fewer rfl
    rw [ran, split]
    refine outcome.prepend moves ?_ fun empty => absurd empty (List.cons_ne_nil _ _)
    intro other others stands _ resembles
    -- Every kind was asked for behind the name, so the twin finds the same one there.
    have same : others.head.kind = tokens.tail.head.kind := resembles.same
    obtain ⟨last, moves, ran⟩ := identifierStmt_run stands isName (same ▸ tells)
    exact ⟨last, moves, ran.trans (by rw [← same]; rfl)⟩
  · obtain ⟨after, ran, pulled⟩ := identifierStmt_faults stands isName tells
    rw [ran]
    refine .inr ⟨[tokens.head], tokens.tail, _, split, rfl, pulled, ?_,
      fun empty => absurd empty (List.cons_ne_nil _ _), ?_⟩
    · refine ⟨List.cons_ne_nil _ _, by decide, fun kind inside => ?_⟩
      obtain ⟨more, derives⟩ := exists_derives (behindName kind)
      have token : Derives [.terminal kind] [.bare kind] := derives_terminal rfl
      exact ⟨_, more, rfl, derives_concept_of_name isName inside (token.append derives)⟩
    · intro other others stands _ resembles
      have untold : others.head.kind ∉ [Token.Kind.openParen, .assignment] := by
        rcases resembles with same | absent
        · rwa [same]
        · exact fun inside => absent (List.mem_append_left _ inside)
      obtain ⟨last, ran, _⟩ := identifierStmt_faults stands isName untold
      exact ⟨last, ran⟩

/-- The tables have a statement for the kinds that begin one. -/
theorem standard_statement_eq_none_iff {kind : Token.Kind} :
    Tables.standard.statement kind = none ↔ kind ∉ Nonterminal.concept.first := by
  rw [first_concept]
  cases kind <;> decide

/-- An operator may go on with a statement. -/
theorem operatorKinds_subset_afterStatement : operatorKinds ⊆ afterStatement :=
  List.subset_append_of_subset_right _ (List.subset_cons_self _ _)

/-- The statement that the tables give for the next token is expected. -/
theorem statementBy_expects (expects : ExpectsNested steps inner twin) {kind : Token.Kind}
    {handler : StatementHandler} (found : Tables.standard.statement kind = some handler) :
    Expects steps (· = kind) Token.Kind.all (statementBy inner handler) (statementBy twin handler)
      (Derives [.nonterminal .concept]) afterStatement := by
  cases handler with
  | identifier =>
    obtain rfl : kind = .identifier := by
      revert found
      cases kind <;> decide
    exact (identifierStmt_expects expects).mono operatorKinds_subset_afterStatement
      fun _ derives => derives
  | declaration =>
    have typed : kind ∈ Nonterminal.data.first := by
      rw [first_data]
      revert found
      cases kind <;> decide
    have declared : Expects steps (· = kind) Token.Kind.all (declaration inner) (declaration twin)
        (Derives [.nonterminal .declaration]) operatorKinds :=
      declaration_expects expects fun _ same => same ▸ typed
    exact declared.mono operatorKinds_subset_afterStatement
      fun _ => derives_of_body (production_mem .conceptDeclaration)
  | branch =>
    obtain rfl : kind = .ifWord := by
      revert found
      cases kind <;> decide
    apply Expects.produce .conceptBranch
    refine (expects.branch fun _ same other => absurd same other).call fun _ => ?_
    exact Expects.finish fun _ inside => inside
  | repetition =>
    obtain rfl : kind = .repWord := by
      revert found
      cases kind <;> decide
    exact (repetition_expects expects).mono (List.nil_subset _)
      fun _ => derives_of_body (production_mem .conceptRepetition)
  | function =>
    obtain rfl : kind = .funcWord := by
      revert found
      cases kind <;> decide
    exact (function_expects expects).mono (List.nil_subset _)
      fun _ => derives_of_body (production_mem .conceptFunctionDecl)

/-- A statement is expected. -/
theorem statement_expects (expects : ExpectsNested steps inner twin)
    (named : ∀ kind, fact kind → kind ∉ Nonterminal.concept.first →
      asked ⊆ wanted Nonterminal.concept.first) :
    Expects steps fact asked (statement inner) (statement twin) (Derives [.nonterminal .concept])
      afterStatement := by
  unfold statement
  refine Expects.select .concept (by rw [first_concept]; decide) (fun _ opens => opens) named
    ?_ ?_ ?_
  · intro kind absent
    refine same_tables fun state standard => ?_
    simp only [standard, standard_statement_eq_none_iff.mpr absent]
  · intro kind absent
    refine same_tables fun state standard => ?_
    simp only [standard, standard_statement_eq_none_iff.mpr absent]
  · intro kind listed _
    cases found : Tables.standard.statement kind with
    | none => exact absurd listed (standard_statement_eq_none_iff.mp found)
    | some handler =>
      have whole : Expects steps (· = kind) Token.Kind.all
          (do
            let statement ← statementBy inner handler
            reduce (statementRule statement)
            return statement)
          (do
            let statement ← statementBy twin handler
            reduce (statementRule statement)
            return statement)
          (Derives [.nonterminal .concept]) afterStatement :=
        (statementBy_expects expects found).call fun _ =>
          Expects.reduce (Expects.finish fun _ inside => inside)
      refine whole.congr (same_tables fun state standard => ?_)
        (same_tables fun state standard => ?_)
      all_goals simp only [standard, found]

/-- Tokens that go on with any body. -/
def ContinuesBody (tokens : List Token) : Prop :=
  ∀ front, Derives [.nonterminal .body] front → Derives [.nonterminal .body] (front ++ tokens)

/-- Nothing goes on with any body. -/
theorem continuesBody_nil : ContinuesBody [] := by
  intro front derives
  rwa [List.append_nil]

/-- A statement and what goes on with a body go on with any body. -/
theorem ContinuesBody.statement {statement more : List Token}
    (derives : Derives [.nonterminal .concept] statement) (continues : ContinuesBody more) :
    ContinuesBody (statement ++ more) := by
  intro front body
  have single := derives_of_body (production_mem .bodySingle) derives
  have longer := continues _ (derives_body_append body single)
  rwa [List.append_assoc] at longer

/-- Statements stop where none begins, whether or not there are rounds left. -/
theorem moreStatements_stops (count : Nat) :
    StopsAt (· ∉ Nonterminal.concept.first) (moreStatements inner count) (pure []) := by
  cases count with
  | zero => exact StopsAt.refl _ _
  | succ count =>
    unfold moreStatements startsStatement
    rw [bind_assoc]
    refine StopsAt.look fun kind absent => ?_
    rw [bind_assoc]
    refine same_tables fun state standard => ?_
    rw [pure_bind, standard, standard_statement_eq_none_iff.mpr absent]
    rfl

/-- Statements go on with any body if they do so where one begins. -/
theorem moreStatements_expects_of_first {count more : Nat}
    (goes_on : Expects steps (fun kind => ¬ kind ∉ Nonterminal.concept.first) afterStatement
      (moreStatements inner count) (moreStatements twin more) ContinuesBody afterStatement) :
    Expects steps AnyKind afterStatement (moreStatements inner count) (moreStatements twin more)
      ContinuesBody afterStatement :=
  Expects.loop (· ∉ Nonterminal.concept.first)
    (fun _ absent begins => absent (List.mem_append_left _ begins)) (moreStatements_stops count)
    (moreStatements_stops more) (Expects.pure continuesBody_nil fun _ inside => inside) goes_on

/-- Statements go on with any body. The induction is over the rounds, of which there are
enough for the items ahead. -/
theorem moreStatements_expects (expects : ExpectsNested steps inner twin) {count more : Nat}
    (bound : count ≤ steps) (rounds : count ≤ more) :
    Expects count AnyKind afterStatement (moreStatements inner count) (moreStatements twin more)
      ContinuesBody afterStatement := by
  induction count generalizing more with
  | zero =>
    refine moreStatements_expects_of_first (Expects.ended fun begins => begins ?_)
    rw [first_concept]
    decide
  | succ count inductionHypothesis =>
    obtain ⟨further, rfl⟩ : ∃ further, more = further + 1 := ⟨more - 1, by omega⟩
    apply moreStatements_expects_of_first
    unfold moreStatements startsStatement
    rw [bind_assoc, bind_assoc]
    refine Expects.inspect fun kind holds => ?_
    have begins : kind ∈ Nonterminal.concept.first := not_not.mp holds
    have starts : (Tables.standard.statement kind).isSome = true := by
      rw [Option.isSome_iff_ne_none]
      exact fun missing => standard_statement_eq_none_iff.mp missing begins
    have first : Expects (count + 1) (· = kind) Token.Kind.all (statement inner) (statement twin)
        (Derives [.nonterminal .concept]) afterStatement :=
      (statement_expects expects fun _ same absent => absurd (same ▸ begins) absent).weaken bound
        (fun _ same => same) fun _ inside => inside
    have others (statement : Stmt) : Expects count AnyKind afterStatement
        (do return statement :: (← moreStatements inner count))
        (do return statement :: (← moreStatements twin further)) ContinuesBody afterStatement :=
      (inductionHypothesis (Nat.le_of_succ_le bound) (Nat.le_of_succ_le_succ rounds)).afterwards
        fun _ => Expects.pure rfl fun _ inside => inside
    -- No statement is empty, so the rounds that are left are enough for the items that are.
    have consumes (tokens : List Token) (derives : Derives [.nonterminal .concept] tokens) :
        count + 1 ≤ count + tokens.length := by
      have filled := List.length_pos_of_ne_nil (ne_nil_of_derives (List.cons_ne_nil _ _) derives)
      omega
    have whole := first.bindFewer consumes others ⟨[], continuesBody_nil⟩
      fun _ _ => ContinuesBody.statement
    rw [bind_assoc, bind_assoc]
    refine whole.congr (same_tables fun state standard => ?_)
      (same_tables fun state standard => ?_)
    all_goals
      rw [pure_bind, standard, starts]
      rfl

/-- The content of a body is expected. -/
theorem bodyContent_expects (expects : ExpectsNested steps inner twin) :
    Expects steps AnyKind [.openCurly] (bodyContent inner) (bodyContent twin)
      (Derives [.nonterminal .body]) afterStatement := by
  have named : [Token.Kind.openCurly] ⊆ wanted Nonterminal.concept.first := by
    unfold wanted omitted
    rw [first_concept, first_op]
    decide
  have others (first : Stmt) : Expects steps AnyKind afterStatement
      (do
        let rest ← moreStatements inner inner.steps
        reduce .bodySingle
        reduceTimes .bodyCons rest.length
        return Block.ofList (first :: rest))
      (do
        let rest ← moreStatements twin twin.steps
        reduce .bodySingle
        reduceTimes .bodyCons rest.length
        return Block.ofList (first :: rest))
      ContinuesBody afterStatement := by
    rw [expects.bound]
    refine (moreStatements_expects expects (Nat.le_refl _) expects.rounds).afterwards fun _ => ?_
    exact Expects.reduce (Expects.reduceTimes (Expects.pure rfl fun _ inside => inside))
  refine (statement_expects expects fun _ _ _ => named).bind others ⟨[], continuesBody_nil⟩ ?_
  exact fun _ _ derives continues =>
    continues _ (derives_of_body (production_mem .bodySingle) derives)

/-- The parsers of constructs expect their phrases, whatever room they have. The induction is
over the room. -/
theorem within_expects {steps more : Nat} (rounds : steps ≤ more) (room : Nat) :
    ExpectsNested steps (Nested.within steps room) (Nested.within more room) := by
  induction room with
  | zero => exact ⟨rfl, rounds, fun _ => Expects.tooDeep, Expects.tooDeep, fun _ => Expects.tooDeep⟩
  | succ room inductionHypothesis =>
    exact ⟨rfl, rounds, exprBy_expects inductionHypothesis.expr rounds,
      (bodyContent_expects inductionHypothesis).construct,
      fun named => (branchContent_expects inductionHypothesis named).construct⟩

end StartEnd.Parse
