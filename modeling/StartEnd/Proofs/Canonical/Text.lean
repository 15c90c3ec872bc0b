import StartEnd.Proofs.Canonical.Concrete
import StartEnd.Proofs.Lexing.Lexeme

/-!
# The lexemes of canonical texts

No two lexemes of a canonical text fuse. A word, a number or an operator is always
followed by a separator, and the brackets and separators end by themselves. So the
canonical text of a tree has exactly the lexemes of the concrete form of the tree.

Texts are put together from two sorts of pieces: those in front of which a separator has
to follow, and those that end their lexemes by themselves.
-/

namespace StartEnd

open Concrete (lexemes)

/-- Characters that end every lexeme in front of them. -/
def separators : List Char := [' ', '\n', '(', ')', ',', ';']

/-- A separator continues no word and makes no sign longer. -/
theorem not_continued_of_separator (character : Char) (isSeparator : character ∈ separators) :
    isWordPart character = false ∧ character ∉ ['=', '+', '-', '*'] := by
  have listed : (separators.all fun separator =>
      !isWordPart separator && !(['=', '+', '-', '*'].contains separator)) = true := by
    decide
  have apart := List.all_eq_true.mp listed character isSeparator
  simpa only [Bool.and_eq_true, Bool.not_eq_true', List.contains_eq_mem, decide_eq_false_iff_not]
    using apart

/-- A text that has the given lexemes when a separator or nothing follows. -/
def Writing (text : List Char) (content : List Lexeme) : Prop :=
  ∀ (rest : List Char) (others : List Lexeme), (∀ next ∈ rest.head?, next ∈ separators) →
    Lexes rest others → Lexes (text ++ rest) (content ++ others)

/-- A text that has the given lexemes whatever follows. -/
def SelfEnding (text : List Char) (content : List Lexeme) : Prop :=
  ∀ (rest : List Char) (others : List Lexeme), Lexes rest others →
    Lexes (text ++ rest) (content ++ others)

section Pieces

variable {text front back : List Char} {content early late : List Lexeme}

/-- What ends by itself can be followed by a separator. -/
theorem SelfEnding.writing (ending : SelfEnding text content) : Writing text content :=
  fun rest others _ lexed => ending rest others lexed

/-- Nothing ends by itself. -/
theorem selfEnding_nil : SelfEnding [] [] := fun _ _ lexed => lexed

/-- Texts that end by themselves stand in a row. -/
theorem SelfEnding.append (ending : SelfEnding front early) (following : SelfEnding back late) :
    SelfEnding (front ++ back) (early ++ late) := by
  intro rest others lexed
  rw [List.append_assoc, List.append_assoc]
  exact ending _ _ (following rest others lexed)

/-- A text that needs a separator stands behind one that ends by itself. -/
theorem SelfEnding.before (ending : SelfEnding front early) (following : Writing back late) :
    Writing (front ++ back) (early ++ late) := by
  intro rest others separated lexed
  rw [List.append_assoc, List.append_assoc]
  exact ending _ _ (following rest others separated lexed)

/-- A text that needs a separator stands before one that begins with it. -/
theorem Writing.append (written : Writing front early) (following : SelfEnding back late)
    (separated : back.head?.any separators.contains = true) :
    SelfEnding (front ++ back) (early ++ late) := by
  intro rest others lexed
  rw [List.append_assoc, List.append_assoc]
  apply written
  · intro next isNext
    obtain ⟨first, isFirst, separates⟩ := Option.any_eq_true _ _ |>.mp separated
    obtain ⟨behind, rfl⟩ : ∃ behind, back = first :: behind :=
      ⟨back.tail, (List.cons_head?_tail isFirst).symm⟩
    obtain rfl : first = next := Option.some.inj isNext
    exact List.contains_iff_mem.mp separates
  · exact following rest others lexed

/-- White space ends by itself and has no lexeme. -/
theorem selfEnding_blank {character : Char} (isBlank : Text.isBlank character = true) :
    SelfEnding [character] [] :=
  fun _ _ lexed => .blank isBlank lexed

/-- A space ends what is in front of it. -/
theorem Writing.space (written : Writing text content) : SelfEnding (text ++ [' ']) content := by
  have ended := written.append (selfEnding_blank (by decide : Text.isBlank ' ' = true)) rfl
  rwa [List.append_nil] at ended

/-- A line break ends what is in front of it. -/
theorem Writing.newline (written : Writing text content) :
    SelfEnding (text ++ ['\n']) content := by
  have ended := written.append (selfEnding_blank (by decide : Text.isBlank '\n' = true)) rfl
  rwa [List.append_nil] at ended

/-- A lexeme needs no more than a separator behind it. -/
theorem Lexeme.Proper.writing {lexeme : Lexeme} (proper : lexeme.Proper) :
    Writing lexeme.characters [lexeme] := by
  intro rest others separated lexed
  refine .lexeme proper ?_ lexed
  unfold Lexeme.Ends
  split
  · exact fun _ next isNext => (not_continued_of_separator next (separated next isNext)).2
  · exact fun next isNext => (not_continued_of_separator next (separated next isNext)).1

/-- A sign that is not the beginning of a longer one ends by itself. -/
theorem selfEnding_sign (kind : Token.Kind) (isSign : kind ∈ signs)
    (whole : kind ∉ Pattern.extendable) :
    SelfEnding kind.characters [(Mark.fixed kind).toLexeme] := by
  intro rest others lexed
  have apart : ∀ kind ∈ signs, kind.isOpen = false := by decide
  have spelled : Lexeme.characters ⟨kind, ""⟩ = kind.characters := by
    simp [Lexeme.characters, apart kind isSign]
  have ends : Lexeme.Ends ⟨kind, ""⟩ rest := by
    simp [Lexeme.Ends, isSign, whole]
  have lexes := Lexes.lexeme (Lexeme.Proper.sign isSign) ends lexed
  rwa [spelled] at lexes

end Pieces

/-- The text of a kind that fixes its text is written. -/
theorem writing_fixed (kind : Token.Kind) (listed : kind ∈ Token.Kind.reserved ++ signs) :
    Writing kind.characters [(Mark.fixed kind).toLexeme] := by
  have closed : ∀ kind ∈ Token.Kind.reserved ++ signs, kind.isOpen = false := by decide
  have spelled : Lexeme.characters ⟨kind, ""⟩ = kind.characters := by
    simp [Lexeme.characters, closed kind listed]
  have proper : Lexeme.Proper ⟨kind, ""⟩ := by
    rcases List.mem_append.mp listed with isReserved | isSign
    · exact .reserved isReserved
    · exact .sign isSign
  have written := proper.writing
  rwa [spelled] at written

/-- A name is written. -/
theorem Identifier.WellFormed.writing {name : Identifier} (wellFormed : name.WellFormed) :
    Writing name.value.toList [(Mark.named name.value).toLexeme] :=
  (Lexeme.Proper.name wellFormed).writing

/-- A number is written. -/
theorem IsNumeral.writing {digits : String} (isNumeral : IsNumeral digits) :
    Writing digits.toList [(Mark.digits digits).toLexeme] :=
  (Lexeme.Proper.numeral isNumeral).writing

/-- The word of a type is written. -/
theorem DataType.writing (dataType : DataType) :
    Writing dataType.keyword.toList [(Mark.fixed dataType.kind).toLexeme] := by
  rw [← Token.Kind.characters_of_lexeme? dataType.lexeme?_kind]
  exact writing_fixed _ (by cases dataType <;> decide)

/-- An operator is written. -/
theorem Operator.writing (operator : Operator) :
    Writing operator.symbol.toList [(Mark.fixed operator.kind).toLexeme] := by
  rw [← Token.Kind.characters_of_lexeme? operator.lexeme?_kind]
  exact writing_fixed _ (by cases operator <;> decide)

/-- A comparison is written. -/
theorem Comparison.writing (comparison : Comparison) :
    Writing comparison.symbol.toList [(Mark.fixed comparison.kind).toLexeme] := by
  rw [← Token.Kind.characters_of_lexeme? comparison.lexeme?_kind]
  exact writing_fixed _ (by cases comparison <;> decide)

/-- Parentheses are written around what needs them. -/
theorem writing_parenthesized {text : String} {expr : Concrete.Expr}
    (written : Writing text.toList (lexemes expr.content)) (needed : Bool) :
    Writing (parenthesized needed text).toList (lexemes (expr.grouped needed).content) := by
  cases needed with
  | false => exact written
  | true =>
    have opened : SelfEnding "(".toList [(Mark.fixed .openParen).toLexeme] :=
      selfEnding_sign .openParen (by decide) (by decide)
    have closed : SelfEnding ")".toList [(Mark.fixed .closeParen).toLexeme] :=
      selfEnding_sign .closeParen (by decide) (by decide)
    have whole := ((opened.before written).append closed rfl).writing
    simpa [parenthesized, Concrete.Expr.grouped, Concrete.Expr.content] using whole

/-- An expression is written as its concrete form. -/
theorem Expr.writing {expr : Expr} (wellFormed : expr.WellFormed) :
    Writing expr.canonical.toList (lexemes expr.concrete.content) := by
  induction expr with
  | binary left operator right leftHypothesis rightHypothesis =>
    have first := writing_parenthesized (leftHypothesis wellFormed.1)
      (left.needsParens operator false)
    have second := writing_parenthesized (rightHypothesis wellFormed.2)
      (right.needsParens operator true)
    have whole := (first.space.before operator.writing).space.before second
    simpa [Expr.canonical, Expr.concrete, Concrete.Expr.content] using whole
  | symbol name => exact Identifier.WellFormed.writing wellFormed
  | number digits => exact IsNumeral.writing wellFormed

/-- A comparison of expressions is written as its concrete form. -/
theorem Condition.writing {condition : Condition} (wellFormed : condition.WellFormed) :
    Writing condition.canonical.toList (lexemes condition.concrete.marks) := by
  have first := (Expr.writing wellFormed.1).space.before condition.operator.writing
  have whole := first.space.before (Expr.writing wellFormed.2)
  simpa [Condition.canonical, Condition.concrete, Concrete.Condition.marks,
    Concrete.Expr.marks] using whole

/-- An assignment is written as its concrete form. -/
theorem Assign.writing {assign : Assign} (wellFormed : assign.WellFormed) :
    Writing assign.canonical.toList (lexemes assign.concrete.marks) := by
  have sign : Writing "=".toList [(Mark.fixed .assignment).toLexeme] :=
    writing_fixed .assignment (by decide)
  have target := (Identifier.WellFormed.writing wellFormed.1).space.before sign
  have whole := target.space.before (Expr.writing wellFormed.2)
  simpa [Assign.canonical, Assign.concrete, Concrete.Assign.marks, Concrete.Expr.marks] using whole

/-- The advance of a loop is written as its concrete form. -/
theorem Step.writing {step : Step} (wellFormed : step.WellFormed) :
    Writing step.canonical.toList (lexemes step.concrete.marks) := by
  cases step with
  | increment name =>
    have sign : SelfEnding "++".toList [(Mark.fixed .plusPlus).toLexeme] :=
      selfEnding_sign .plusPlus (by decide) (by decide)
    have whole := sign.before (Identifier.WellFormed.writing wellFormed)
    simpa [Step.canonical, Step.concrete, Concrete.Step.marks] using whole
  | decrement name =>
    have sign : SelfEnding "--".toList [(Mark.fixed .minusMinus).toLexeme] :=
      selfEnding_sign .minusMinus (by decide) (by decide)
    have whole := sign.before (Identifier.WellFormed.writing wellFormed)
    simpa [Step.canonical, Step.concrete, Concrete.Step.marks] using whole
  | assign assignment => exact Assign.writing wellFormed

/-- A typed name is written. -/
theorem Parameter.writing {parameter : Parameter} (wellFormed : parameter.name.WellFormed) :
    Writing parameter.canonical.toList
      [(Mark.fixed parameter.dataType.kind).toLexeme,
        (Mark.named parameter.name.value).toLexeme] := by
  have whole := parameter.dataType.writing.space.before wellFormed.writing
  simpa [Parameter.canonical] using whole

/-- Typed names are written with commas between them. -/
theorem writing_parameters {parameters : List Parameter}
    (wellFormed : ParametersWellFormed parameters) :
    Writing (parametersCanonical parameters).toList
      (lexemes (Concrete.parameterMarks parameters)) := by
  match parameters with
  | [] => exact absurd rfl wellFormed.1
  | [only] =>
    have whole := Parameter.writing (wellFormed.2 only (by simp))
    simpa [parametersCanonical, Concrete.parameterMarks] using whole
  | first :: second :: rest =>
    have further : ParametersWellFormed (second :: rest) :=
      ⟨by simp, fun parameter inside => wellFormed.2 parameter (List.mem_cons_of_mem _ inside)⟩
    have comma : SelfEnding ", ".toList [(Mark.fixed .comma).toLexeme] :=
      (selfEnding_sign .comma (by decide) (by decide)).writing.space
    have early := (Parameter.writing (wellFormed.2 first (by simp))).append comma rfl
    have whole := early.before (writing_parameters further)
    simpa [parametersCanonical, Concrete.parameterMarks, String.intercalate_cons_cons] using whole

/-- The indentation of a line has no lexeme. -/
theorem selfEnding_indentation (level : Nat) :
    SelfEnding (String.join (List.replicate level "  ")).toList [] := by
  induction level with
  | zero => exact selfEnding_nil
  | succ level inductionHypothesis =>
    have blanks : SelfEnding "  ".toList [] := selfEnding_nil.writing.space.writing.space
    have whole := blanks.append inductionHypothesis
    simpa [List.replicate_succ, String.join_cons] using whole

/-- A line ends by itself. -/
theorem Writing.line {text : String} {content : List Lexeme}
    (written : Writing text.toList content) (level : Nat) :
    SelfEnding (indentedLine level text).toList content := by
  have whole := ((selfEnding_indentation level).before written).newline
  simpa [indentedLine] using whole

/-- What opens a block behind parentheses ends by itself. -/
theorem selfEnding_blockOpening : SelfEnding ") \x7b".toList
    [(Mark.fixed .closeParen).toLexeme, (Mark.fixed .openCurly).toLexeme] := by
  have closed := selfEnding_sign .closeParen (by decide) (by decide)
  exact closed.writing.space.append (selfEnding_sign .openCurly (by decide) (by decide))

/-- What closes a block is a line. -/
theorem selfEnding_blockClosing (level : Nat) :
    SelfEnding (indentedLine level "\x7d").toList [(Mark.fixed .closeCurly).toLexeme] :=
  (selfEnding_sign .closeCurly (by decide) (by decide)).writing.line level

/-- The line that opens an `if` link ends by itself. -/
theorem selfEnding_linkOpening {condition : Condition} (wellFormed : condition.WellFormed)
    {opening : String} {content : List Lexeme} (opened : SelfEnding opening.toList content)
    (level : Nat) :
    SelfEnding (indentedLine level (opening ++ "if (" ++ condition.canonical ++ ") \x7b")).toList
      (content ++ lexemes (.fixed .ifWord :: .fixed .openParen ::
        (condition.concrete.marks ++ [.fixed .closeParen, .fixed .openCurly]))) := by
  have word : SelfEnding "if (".toList
      [(Mark.fixed .ifWord).toLexeme, (Mark.fixed .openParen).toLexeme] :=
    (writing_fixed .ifWord (by decide)).space.append
      (selfEnding_sign .openParen (by decide) (by decide))
  have guarded := (opened.append word).before (Condition.writing wellFormed)
  have whole := (guarded.append selfEnding_blockOpening rfl).writing
  refine Writing.line ?_ level
  simpa using whole

/-- The line that opens a loop ends by itself. -/
theorem selfEnding_loopOpening (dataType : DataType) {init : Assign} {condition : Condition}
    {step : Step} (initFormed : init.WellFormed) (conditionFormed : condition.WellFormed)
    (stepFormed : step.WellFormed) (level : Nat) :
    SelfEnding (indentedLine level ("rep (" ++ dataType.keyword ++ " " ++ init.canonical ++
        "; " ++ condition.canonical ++ "; " ++ step.canonical ++ ") \x7b")).toList
      (lexemes (.fixed .repWord :: .fixed .openParen :: .fixed dataType.kind ::
        (init.concrete.marks ++ .fixed .semicolon :: (condition.concrete.marks ++
          .fixed .semicolon :: (step.concrete.marks ++
            [.fixed .closeParen, .fixed .openCurly]))))) := by
  have word : SelfEnding "rep (".toList
      [(Mark.fixed .repWord).toLexeme, (Mark.fixed .openParen).toLexeme] :=
    (writing_fixed .repWord (by decide)).space.append
      (selfEnding_sign .openParen (by decide) (by decide))
  have semicolon : SelfEnding "; ".toList [(Mark.fixed .semicolon).toLexeme] :=
    (selfEnding_sign .semicolon (by decide) (by decide)).writing.space
  have begun := (word.before dataType.writing).space.before (Assign.writing initFormed)
  have guarded := (begun.append semicolon rfl).before (Condition.writing conditionFormed)
  have advanced := (guarded.append semicolon rfl).before (Step.writing stepFormed)
  have whole := (advanced.append selfEnding_blockOpening rfl).writing
  refine Writing.line ?_ level
  simpa using whole

/-- The line that opens a function ends by itself. -/
theorem selfEnding_functionOpening (returnType : DataType) {name : Identifier}
    {parameters : List Parameter} (nameFormed : name.WellFormed)
    (parametersFormed : ParametersWellFormed parameters) (level : Nat) :
    SelfEnding (indentedLine level ("func " ++ returnType.keyword ++ " " ++ name.value ++ "(" ++
        parametersCanonical parameters ++ ") \x7b")).toList
      (lexemes (.fixed .funcWord :: .fixed returnType.kind :: .named name.value ::
        .fixed .openParen :: (Concrete.parameterMarks parameters ++
          [.fixed .closeParen, .fixed .openCurly]))) := by
  have word : SelfEnding "func ".toList [(Mark.fixed .funcWord).toLexeme] :=
    (writing_fixed .funcWord (by decide)).space
  have paren : SelfEnding "(".toList [(Mark.fixed .openParen).toLexeme] :=
    selfEnding_sign .openParen (by decide) (by decide)
  have titled := (word.before returnType.writing).space.before nameFormed.writing
  have listed := (titled.append paren rfl).before (writing_parameters parametersFormed)
  have whole := (listed.append selfEnding_blockOpening rfl).writing
  refine Writing.line ?_ level
  simpa using whole

mutual

/-- The lines of a statement have the lexemes of its concrete form. -/
theorem Stmt.selfEnding (statement : Stmt) (wellFormed : statement.WellFormed) (level : Nat) :
    SelfEnding (statement.canonical level).toList (lexemes statement.concrete.marks) := by
  match statement with
  | .assign assignment => exact (Assign.writing wellFormed).line level
  | .declaration dataType assignment =>
    have whole := dataType.writing.space.before (Assign.writing wellFormed)
    refine Writing.line ?_ level
    simpa [Stmt.concrete, Concrete.Stmt.marks] using whole
  | .branch link =>
    have whole := Branch.selfEnding link wellFormed level "" [] selfEnding_nil
    simpa [Stmt.canonical, Stmt.concrete, Concrete.Stmt.marks] using whole
  | .repetition dataType init condition step body =>
    obtain ⟨initFormed, conditionFormed, stepFormed, _, bodyFormed⟩ := wellFormed
    have opened := selfEnding_loopOpening dataType initFormed conditionFormed
      stepFormed level
    have whole := (opened.append (Block.selfEnding body bodyFormed (level + 1))).append
      (selfEnding_blockClosing level)
    simpa [Stmt.canonical, Stmt.concrete, Concrete.Stmt.marks] using whole
  | .function returnType name parameters body result =>
    obtain ⟨nameFormed, parametersFormed, _, bodyFormed, resultFormed⟩ := wellFormed
    have opened := selfEnding_functionOpening returnType nameFormed
      parametersFormed level
    have word : SelfEnding "ret ".toList [(Mark.fixed .retWord).toLexeme] :=
      (writing_fixed .retWord (by decide)).space
    have returned : Writing ("ret " ++ result.value).toList _ :=
      String.toList_append ▸ word.before resultFormed.writing
    have whole := ((opened.append (Block.selfEnding body bodyFormed (level + 1))).append
      (returned.line (level + 1))).append (selfEnding_blockClosing level)
    simpa [Stmt.canonical, Stmt.concrete, Concrete.Stmt.marks] using whole
  | .call name arguments =>
    have paren : SelfEnding "(".toList [(Mark.fixed .openParen).toLexeme] :=
      selfEnding_sign .openParen (by decide) (by decide)
    have closed : SelfEnding ")".toList [(Mark.fixed .closeParen).toLexeme] :=
      selfEnding_sign .closeParen (by decide) (by decide)
    have listed := ((Identifier.WellFormed.writing wellFormed.1).append paren rfl).before
      (writing_parameters wellFormed.2)
    have whole := (listed.append closed rfl).writing
    refine Writing.line ?_ level
    simpa [Stmt.concrete, Concrete.Stmt.marks] using whole

/-- The lines of an `if` chain have the lexemes of its concrete form behind those of the
text that they begin with. -/
theorem Branch.selfEnding (link : Branch) (wellFormed : link.WellFormed) (level : Nat)
    (opening : String) (content : List Lexeme) (opened : SelfEnding opening.toList content) :
    SelfEnding (link.canonical level opening).toList
      (content ++ lexemes link.concrete.content) := by
  match link with
  | .last condition body =>
    obtain ⟨conditionFormed, _, bodyFormed⟩ := wellFormed
    have header := selfEnding_linkOpening conditionFormed opened level
    have whole := (header.append (Block.selfEnding body bodyFormed (level + 1))).append
      (selfEnding_blockClosing level)
    simpa [Branch.canonical, Branch.concrete, Concrete.Link.content, Concrete.enclosed]
      using whole
  | .orElse condition body next =>
    obtain ⟨conditionFormed, _, bodyFormed, nextFormed⟩ := wellFormed
    have header := selfEnding_linkOpening conditionFormed opened level
    have closed := selfEnding_sign .closeCurly (by decide) (by decide)
    have continued : SelfEnding "\x7d else ".toList
        [(Mark.fixed .closeCurly).toLexeme, (Mark.fixed .elseWord).toLexeme] :=
      (closed.writing.space.before (writing_fixed .elseWord (by decide))).space
    have rest := Branch.selfEnding next nextFormed level "\x7d else " _ continued
    have whole := (header.append (Block.selfEnding body bodyFormed (level + 1))).append rest
    simpa [Branch.canonical, Branch.concrete, Concrete.Link.content, Concrete.enclosed]
      using whole

/-- The lines of a block have the lexemes of its concrete form. -/
theorem Block.selfEnding (block : Block) (wellFormed : block.WellFormed) (level : Nat) :
    SelfEnding (block.canonical level).toList (lexemes block.concrete.content) := by
  match block with
  | .nil => exact selfEnding_nil
  | .cons first rest =>
    have whole := (Stmt.selfEnding first wellFormed.1 level).append
      (Block.selfEnding rest wellFormed.2 level)
    simpa [Block.canonical, Block.concrete, Concrete.Body.content] using whole

end

/-- The canonical text of a program has the lexemes of its concrete form. -/
theorem Program.lexes_canonical {program : Program} (wellFormed : program.WellFormed) :
    Lexes program.canonical.toList (lexemes program.marks) := by
  have opened : SelfEnding (indentedLine 0 "Start").toList [(Mark.fixed .startWord).toLexeme] :=
    (writing_fixed .startWord (by decide)).line 0
  have closed : SelfEnding (indentedLine 0 "End").toList [(Mark.fixed .endWord).toLexeme] :=
    (writing_fixed .endWord (by decide)).line 0
  have whole := ((opened.append (program.body.selfEnding wellFormed.2 1)).append closed) [] [] .nil
  simpa [Program.canonical, Program.marks, Concrete.Body.programMarks] using whole

end StartEnd
