import StartEnd.Proofs.Canonical.Nest
import StartEnd.Proofs.Nesting.Exact

/-!
# Braces around a body

The body of an `if` may stand between braces or without them. Braces around a body that
had none change two lexemes of a program and nothing else: the tree, the productions and
the number of open constructs stay the same, and a parse still finds every other body,
`else` and expression where it was.

A bare body is located by the lexemes in front of it and behind it.
-/

namespace StartEnd

namespace Concrete

/-- What stands before the body of a link. -/
def Condition.opening (condition : Condition) : List Mark :=
  .fixed .ifWord :: .fixed .openParen :: (condition.marks ++ [.fixed .closeParen])

/-- What stands before the body of a loop. -/
def repetitionOpening (dataType : DataType) (init : Assign) (condition : Condition) (step : Step) :
    List Mark :=
  .fixed .repWord :: .fixed .openParen :: .fixed dataType.kind ::
    (init.marks ++ .fixed .semicolon :: (condition.marks ++ .fixed .semicolon ::
      (step.marks ++ [.fixed .closeParen, .fixed .openCurly])))

/-- What stands before the body of a function. -/
def functionOpening (returnType : DataType) (name : Identifier) (parameters : List Parameter) :
    List Mark :=
  .fixed .funcWord :: .fixed returnType.kind :: .named name.value :: .fixed .openParen ::
    (parameterMarks parameters ++ [.fixed .closeParen, .fixed .openCurly])

/-- The opening brace, if there are braces. -/
def opener (braced : Bool) : List Mark := if braced then [.fixed .openCurly] else []

/-- The closing brace, if there are braces. -/
def closer (braced : Bool) : List Mark := if braced then [.fixed .closeCurly] else []

/-- What is enclosed stands between its braces. -/
theorem enclosed_eq (braced : Bool) (marks : List Mark) :
    enclosed braced marks = opener braced ++ (marks ++ closer braced) := by
  cases braced with
  | true => rfl
  | false => simp [enclosed, opener, closer]

mutual

/-- A statement has the given body of an `if` without braces between the given lexemes. The
last statement is the one with braces around that body. -/
inductive Stmt.Bare (bare : Body) : Stmt → List Lexeme → List Lexeme → Stmt → Prop
  | branch {link braced : Link} {front back : List Lexeme}
      (inside : Link.Bare bare link front back braced) :
      Stmt.Bare bare (.branch link) front back (.branch braced)
  | repetition (dataType : DataType) (init : Assign) (condition : Condition) (step : Step)
      {body braced : Body} {front back : List Lexeme}
      (inside : Body.Bare bare body front back braced) :
      Stmt.Bare bare (.repetition dataType init condition step body)
        (lexemes (repetitionOpening dataType init condition step) ++ front)
        (back ++ lexemes [.fixed .closeCurly]) (.repetition dataType init condition step braced)
  | function (returnType : DataType) (name : Identifier) (parameters : List Parameter)
      (result : Identifier) {body braced : Body} {front back : List Lexeme}
      (inside : Body.Bare bare body front back braced) :
      Stmt.Bare bare (.function returnType name parameters body result)
        (lexemes (functionOpening returnType name parameters) ++ front)
        (back ++ lexemes [.fixed .retWord, .named result.value, .fixed .closeCurly])
        (.function returnType name parameters braced result)

/-- A link has the given body of an `if` without braces between the given lexemes: it is its
own body, or it stands inside its body or behind its `else`. -/
inductive Link.Bare (bare : Body) : Link → List Lexeme → List Lexeme → Link → Prop
  | last (condition : Condition) :
      Link.Bare bare (.last condition false bare) (lexemes condition.opening) []
        (.last condition true bare)
  | orElse (condition : Condition) (next : Link) :
      Link.Bare bare (.orElse condition false bare next) (lexemes condition.opening)
        (lexemes (.fixed .elseWord :: next.content)) (.orElse condition true bare next)
  | insideLast (condition : Condition) (braces : Bool) {body braced : Body}
      {front back : List Lexeme} (inside : Body.Bare bare body front back braced) :
      Link.Bare bare (.last condition braces body)
        (lexemes (condition.opening ++ opener braces) ++ front)
        (back ++ lexemes (closer braces)) (.last condition braces braced)
  | insideOrElse (condition : Condition) (braces : Bool) (next : Link) {body braced : Body}
      {front back : List Lexeme} (inside : Body.Bare bare body front back braced) :
      Link.Bare bare (.orElse condition braces body next)
        (lexemes (condition.opening ++ opener braces) ++ front)
        (back ++ lexemes (closer braces ++ .fixed .elseWord :: next.content))
        (.orElse condition braces braced next)
  | behindElse (condition : Condition) (braces : Bool) (body : Body) {next braced : Link}
      {front back : List Lexeme} (inside : Link.Bare bare next front back braced) :
      Link.Bare bare (.orElse condition braces body next)
        (lexemes (condition.opening ++ enclosed braces body.content ++ [.fixed .elseWord]) ++ front)
        back (.orElse condition braces body braced)

/-- Statements have the given body of an `if` without braces between the given lexemes. -/
inductive Body.Bare (bare : Body) : Body → List Lexeme → List Lexeme → Body → Prop
  | first (rest : Body) {first braced : Stmt} {front back : List Lexeme}
      (inside : Stmt.Bare bare first front back braced) :
      Body.Bare bare (.cons first rest) front (back ++ lexemes rest.content) (.cons braced rest)
  | rest (first : Stmt) {rest braced : Body} {front back : List Lexeme}
      (inside : Body.Bare bare rest front back braced) :
      Body.Bare bare (.cons first rest) (lexemes first.marks ++ front) back (.cons first braced)

end

/-- Lexemes of what is enclosed do not depend on levels. -/
theorem lexemes_enclosed (braced : Bool) (marks : List Mark) :
    lexemes (enclosed braced marks) =
      lexemes (opener braced) ++ (lexemes marks ++ lexemes (closer braced)) := by
  rw [enclosed_eq, lexemes_append, lexemes_append]

mutual

/-- A statement has the lexemes of its bare body where they are located. -/
theorem Stmt.Bare.lexemes_eq {statement braced : Stmt} {front back : List Lexeme} {bare : Body}
    (located : Stmt.Bare bare statement front back braced) :
    lexemes statement.marks = front ++ (lexemes bare.content ++ back) ∧
      lexemes braced.marks = front ++ (lexemes (enclosed true bare.content) ++ back) := by
  cases located with
  | branch inside =>
    simpa [Stmt.marks] using Link.Bare.lexemes_eq inside
  | repetition dataType init condition step inside =>
    have inner := Body.Bare.lexemes_eq inside
    simp [Stmt.marks, repetitionOpening, inner.1, inner.2]
  | function returnType name parameters result inside =>
    have inner := Body.Bare.lexemes_eq inside
    simp [Stmt.marks, functionOpening, inner.1, inner.2]

/-- A link has the lexemes of its bare body where they are located. -/
theorem Link.Bare.lexemes_eq {link braced : Link} {front back : List Lexeme} {bare : Body}
    (located : Link.Bare bare link front back braced) :
    lexemes link.content = front ++ (lexemes bare.content ++ back) ∧
      lexemes braced.content = front ++ (lexemes (enclosed true bare.content) ++ back) := by
  cases located with
  | last condition =>
    simp [Link.content, Condition.opening, lexemes_enclosed, opener, closer]
  | orElse condition next =>
    simp [Link.content, Condition.opening, lexemes_enclosed, opener, closer]
  | insideLast condition braces inside =>
    have inner := Body.Bare.lexemes_eq inside
    simp [Link.content, Condition.opening, lexemes_enclosed, inner.1, inner.2]
  | insideOrElse condition braces next inside =>
    have inner := Body.Bare.lexemes_eq inside
    simp [Link.content, Condition.opening, lexemes_enclosed, inner.1, inner.2]
  | behindElse condition braces body inside =>
    have inner := Link.Bare.lexemes_eq inside
    simp [Link.content, Condition.opening, lexemes_enclosed, inner.1, inner.2]

/-- Statements have the lexemes of their bare body where they are located. -/
theorem Body.Bare.lexemes_eq {body braced : Body} {front back : List Lexeme} {bare : Body}
    (located : Body.Bare bare body front back braced) :
    lexemes body.content = front ++ (lexemes bare.content ++ back) ∧
      lexemes braced.content = front ++ (lexemes (enclosed true bare.content) ++ back) := by
  cases located with
  | first rest inside =>
    have inner := Stmt.Bare.lexemes_eq inside
    simp [Body.content, inner.1, inner.2]
  | rest first inside =>
    have inner := Body.Bare.lexemes_eq inside
    simp [Body.content, inner.1, inner.2]

end

mutual

/-- Braces change neither the tree nor the productions of a statement. -/
theorem Stmt.Bare.tree_eq {statement braced : Stmt} {front back : List Lexeme} {bare : Body}
    (located : Stmt.Bare bare statement front back braced) :
    braced.tree = statement.tree ∧ braced.rules = statement.rules := by
  cases located with
  | branch inside =>
    have inner := Link.Bare.tree_eq inside
    simp [Stmt.tree, Stmt.rules, inner.1, inner.2]
  | repetition dataType init condition step inside =>
    have inner := Body.Bare.tree_eq inside
    simp [Stmt.tree, Stmt.rules, inner.1, inner.2]
  | function returnType name parameters result inside =>
    have inner := Body.Bare.tree_eq inside
    simp [Stmt.tree, Stmt.rules, inner.1, inner.2]

/-- Braces change neither the tree nor the productions of a link. -/
theorem Link.Bare.tree_eq {link braced : Link} {front back : List Lexeme} {bare : Body}
    (located : Link.Bare bare link front back braced) :
    braced.tree = link.tree ∧ braced.rules = link.rules := by
  cases located with
  | last condition => exact ⟨rfl, rfl⟩
  | orElse condition next => exact ⟨rfl, rfl⟩
  | insideLast condition braces inside =>
    have inner := Body.Bare.tree_eq inside
    simp [Link.tree, Link.rules, inner.1, inner.2]
  | insideOrElse condition braces next inside =>
    have inner := Body.Bare.tree_eq inside
    simp [Link.tree, Link.rules, inner.1, inner.2]
  | behindElse condition braces body inside =>
    have inner := Link.Bare.tree_eq inside
    simp [Link.tree, Link.rules, inner.1, inner.2]

/-- Braces change neither the tree nor the productions of statements in a row. -/
theorem Body.Bare.tree_eq {body braced : Body} {front back : List Lexeme} {bare : Body}
    (located : Body.Bare bare body front back braced) :
    braced.tree = body.tree ∧ braced.statementRules = body.statementRules ∧
      braced.length = body.length := by
  cases located with
  | first rest inside =>
    have inner := Stmt.Bare.tree_eq inside
    simp [Body.tree, Body.statementRules, Body.length, inner.1, inner.2]
  | rest first inside =>
    have inner := Body.Bare.tree_eq inside
    simp [Body.tree, Body.statementRules, Body.length, inner.1, inner.2]

end

/-- A body with a bare body inside has a statement, with and without braces. -/
theorem Body.Bare.ne_nil {body braced : Body} {front back : List Lexeme} {bare : Body}
    (located : Body.Bare bare body front back braced) : body ≠ .nil ∧ braced ≠ .nil := by
  cases located with
  | first rest inside => exact ⟨nofun, nofun⟩
  | rest first inside => exact ⟨nofun, nofun⟩

/-- A body that is a construct of its own needs the same constructs with and without
braces. -/
theorem Body.Bare.peak_raised_eq {body braced : Body} {front back : List Lexeme} {bare : Body}
    (located : Body.Bare bare body front back braced)
    (same : peak braced.content = peak body.content) :
    peak (raised braced.content) = peak (raised body.content) := by
  rw [peak_raised (Body.content_ne_nil located.ne_nil.1),
    peak_raised (Body.content_ne_nil located.ne_nil.2), same]

mutual

/-- Braces open no construct in a statement. -/
theorem Stmt.Bare.peak_eq {statement braced : Stmt} {front back : List Lexeme} {bare : Body}
    (located : Stmt.Bare bare statement front back braced) :
    peak braced.marks = peak statement.marks := by
  cases located with
  | branch inside =>
    have inner := Link.Bare.peak_eq inside
    simp [Stmt.marks, peak_raised (Link.content_ne_nil _), inner]
  | repetition dataType init condition step inside =>
    have inner := inside.peak_raised_eq (Body.Bare.peak_eq inside)
    simp [Stmt.marks, inner]
  | function returnType name parameters result inside =>
    have inner := inside.peak_raised_eq (Body.Bare.peak_eq inside)
    simp [Stmt.marks, inner]

/-- Braces open no construct in a link. -/
theorem Link.Bare.peak_eq {link braced : Link} {front back : List Lexeme} {bare : Body}
    (located : Link.Bare bare link front back braced) :
    peak braced.content = peak link.content := by
  cases located with
  | last condition => simp [Link.content, peak_enclosed]
  | orElse condition next => simp [Link.content, peak_enclosed]
  | insideLast condition braces inside =>
    have inner := inside.peak_raised_eq (Body.Bare.peak_eq inside)
    simp [Link.content, peak_enclosed, inner]
  | insideOrElse condition braces next inside =>
    have inner := inside.peak_raised_eq (Body.Bare.peak_eq inside)
    simp [Link.content, peak_enclosed, inner]
  | behindElse condition braces body inside =>
    have inner := Link.Bare.peak_eq inside
    simp [Link.content, peak_raised (Link.content_ne_nil _), inner]

/-- Braces open no construct in a body. -/
theorem Body.Bare.peak_eq {body braced : Body} {front back : List Lexeme} {bare : Body}
    (located : Body.Bare bare body front back braced) :
    peak braced.content = peak body.content := by
  cases located with
  | first rest inside =>
    have inner := Stmt.Bare.peak_eq inside
    simp [Body.content, inner]
  | rest first inside =>
    have inner := Body.Bare.peak_eq inside
    simp [Body.content, inner]

end

/-- Braces open no construct in a program. -/
theorem Body.Bare.peak_programMarks {body braced : Body} {front back : List Lexeme} {bare : Body}
    (located : Body.Bare bare body front back braced) :
    peak braced.programMarks = peak body.programMarks := by
  simp [Body.programMarks, located.peak_raised_eq located.peak_eq]

mutual

/-- A statement that a parse finds somewhere is also found before a closing brace. -/
theorem Stmt.placed_closeCurly (statement : Stmt) {next : Token.Kind}
    (placed : statement.Placed next) : statement.Placed .closeCurly := by
  have settles : Parse.Settles .lowest .closeCurly := by decide
  match statement with
  | .assign assignment => exact ⟨placed.1, settles⟩
  | .declaration dataType assignment => exact ⟨placed.1, settles⟩
  | .branch link => exact Link.placed_closeCurly link placed
  | .repetition dataType init condition step body => exact placed
  | .function returnType name parameters body result => exact placed
  | .call name arguments => exact placed

/-- A link that a parse finds somewhere is also found before a closing brace. -/
theorem Link.placed_closeCurly (link : Link) {next : Token.Kind} (placed : link.Placed next) :
    link.Placed .closeCurly := by
  match link with
  | .last condition braced body =>
    obtain ⟨fits, follows, present, _⟩ := placed
    have before : body.Follow .closeCurly := Body.follow_closeCurly body follows
    exact ⟨fits, by cases braced <;> exact before, present, nofun⟩
  | .orElse condition braced body rest =>
    obtain ⟨fits, follows, present, further⟩ := placed
    exact ⟨fits, follows, present, Link.placed_closeCurly rest further⟩

/-- Statements that a parse finds somewhere are also found before a closing brace. -/
theorem Body.follow_closeCurly (body : Body) {next : Token.Kind} (follows : body.Follow next) :
    body.Follow .closeCurly := by
  match body with
  | .nil =>
    have stops : ¬ Parse.BeginsStatement .closeCurly := by decide
    exact stops
  | .cons first .nil =>
    exact ⟨Stmt.placed_closeCurly first follows.1, Body.follow_closeCurly .nil follows.2⟩
  | .cons first (.cons second others) =>
    exact ⟨follows.1, Body.follow_closeCurly (.cons second others) follows.2⟩

end

/-- Braces do not change the kind with which a statement begins. -/
theorem Stmt.Bare.firstKind_eq {statement braced : Stmt} {front back : List Lexeme} {bare : Body}
    (located : Stmt.Bare bare statement front back braced) :
    braced.firstKind = statement.firstKind := by
  cases located <;> rfl

/-- Braces do not change the kind with which statements begin. -/
theorem Body.Bare.firstKind_eq {body braced : Body} {front back : List Lexeme} {bare : Body}
    (located : Body.Bare bare body front back braced) (next : Token.Kind) :
    braced.firstKind next = body.firstKind next := by
  cases located with
  | first rest inside => exact inside.firstKind_eq
  | rest first inside => rfl

/-- Behind a body stands its closing brace or what follows. -/
theorem firstKind_closer (braced : Bool) (rest : List Lexeme) :
    firstKind (lexemes (closer braced) ++ rest) =
      if braced then .closeCurly else firstKind rest := by
  cases braced <;> rfl

mutual

/-- In a statement that a parse finds, the parse finds the bare body before what is behind
it, and it finds the statement with braces. -/
theorem Stmt.Bare.placed {statement braced : Stmt} {front back : List Lexeme} {bare : Body}
    (located : Stmt.Bare bare statement front back braced) (rest : List Lexeme)
    (found : statement.Placed (firstKind rest)) :
    bare.Placed (firstKind (back ++ rest)) ∧ braced.Placed (firstKind rest) := by
  cases located with
  | branch inside => exact Link.Bare.placed inside rest found
  | repetition dataType init condition step inside =>
    obtain ⟨initFits, conditionFits, stepFits, follows, _⟩ := found
    have inner := Body.Bare.placed inside (lexemes [.fixed .closeCurly] ++ rest) follows
    rw [List.append_assoc]
    exact ⟨inner.1, initFits, conditionFits, stepFits, inner.2, inside.ne_nil.2⟩
  | function returnType name parameters result inside =>
    obtain ⟨listed, follows, _⟩ := found
    have inner := Body.Bare.placed inside
      (lexemes [.fixed .retWord, .named result.value, .fixed .closeCurly] ++ rest) follows
    rw [List.append_assoc]
    exact ⟨inner.1, listed, inner.2, inside.ne_nil.2⟩

/-- In a link that a parse finds, the parse finds the bare body before what is behind it, and
it finds the link with braces. -/
theorem Link.Bare.placed {link braced : Link} {front back : List Lexeme} {bare : Body}
    (located : Link.Bare bare link front back braced) (rest : List Lexeme)
    (found : link.Placed (firstKind rest)) :
    bare.Placed (firstKind (back ++ rest)) ∧ braced.Placed (firstKind rest) := by
  cases located with
  | last condition =>
    -- A body that ended here without braces also ends at a closing brace.
    obtain ⟨fits, follows, present, ends⟩ := found
    exact ⟨⟨follows, present⟩, fits, Body.follow_closeCurly bare follows, present, ends⟩
  | orElse condition next =>
    obtain ⟨fits, follows, present, further⟩ := found
    exact ⟨⟨follows, present⟩, fits, Body.follow_closeCurly bare follows, present, further⟩
  | insideLast condition braces inside =>
    -- Without braces the body ends where the link does, so what follows the link follows it.
    obtain ⟨fits, follows, _, ends⟩ := found
    rw [← firstKind_closer] at follows
    have inner := Body.Bare.placed inside _ follows
    rw [firstKind_closer] at inner
    rw [List.append_assoc]
    exact ⟨inner.1, fits, inner.2, inside.ne_nil.2, ends⟩
  | insideOrElse condition braces next inside =>
    obtain ⟨fits, follows, _, further⟩ := found
    have behind : firstKind (lexemes (closer braces) ++ (lexemes (.fixed .elseWord :: next.content)
        ++ rest)) = if braces then .closeCurly else .elseWord := firstKind_closer braces _
    rw [← behind] at follows
    have inner := Body.Bare.placed inside _ follows
    rw [behind] at inner
    rw [lexemes_append, List.append_assoc, List.append_assoc]
    exact ⟨inner.1, fits, inner.2, inside.ne_nil.2, further⟩
  | behindElse condition braces body inside =>
    obtain ⟨fits, follows, present, further⟩ := found
    have inner := Link.Bare.placed inside rest further
    exact ⟨inner.1, fits, follows, present, inner.2⟩

/-- In statements that a parse finds, the parse finds the bare body before what is behind it,
and it finds the statements with braces. -/
theorem Body.Bare.placed {body braced : Body} {front back : List Lexeme} {bare : Body}
    (located : Body.Bare bare body front back braced) (rest : List Lexeme)
    (found : body.Follow (firstKind rest)) :
    bare.Placed (firstKind (back ++ rest)) ∧ braced.Follow (firstKind rest) := by
  cases located with
  | first others inside =>
    obtain ⟨placed, follows⟩ := found
    rw [← firstKind_content] at placed
    have inner := Stmt.Bare.placed inside _ placed
    rw [firstKind_content] at inner
    rw [List.append_assoc]
    exact ⟨inner.1, inner.2, follows⟩
  | rest first inside =>
    obtain ⟨placed, follows⟩ := found
    have inner := Body.Bare.placed inside _ follows
    rw [← inside.firstKind_eq] at placed
    exact ⟨inner.1, placed, inner.2⟩

end

end Concrete

namespace Parse

open Concrete

/-- A parse of tokens that write down a program with room for its constructs gives its tree
and its productions. -/
theorem tokens_of_reading {tokens : List Token} {body : Body} (reading : body.IsReadingOf tokens)
    (fits : peak body.programMarks ≤ 128) :
    (Parse.tokens tokens).1 = .ok ⟨body.tree⟩ ∧
      (Parse.tokens tokens).2.reductions = body.rules ++ [.program] := by
  have outcome := tokensAt_exact (Nat.zero_le depthLimit) reading.1 reading.2
  have roomy : overflow 0 (beforeEnding tokens) body.programMarks = none :=
    (overflow_eq_none_iff (Nat.zero_le depthLimit) reading.2).mpr (by rwa [Nat.zero_add])
  rw [roomy] at outcome
  obtain ⟨after, ran, reductions⟩ := outcome
  rw [tokensAt_zero] at ran
  rw [ran]
  exact ⟨rfl, reductions⟩

/-- Behind the tokens before the first end-of-input token stand no others that a parse
reads. -/
theorem exists_behind_ending (tokens : List Token) :
    ∃ behind, tokens = beforeEnding tokens ++ behind ∧ beforeEnding behind = [] := by
  rcases beforeEnding_cases tokens with whole | ⟨last, others, isEnding, split⟩
  · exact ⟨[], by rw [whole, List.append_nil], rfl⟩
  · exact ⟨last :: others, split, by simp [beforeEnding, isEnding]⟩

/-- A bare body splits the tokens of a program. The token behind it is one that ends the body,
and with braces around the body the tokens write down the program with braces. -/
theorem exists_split_of_bare {tokens : List Token} {body bare braced : Body}
    {front back : List Lexeme} (reading : body.IsReadingOf tokens)
    (located : Body.Bare bare body front back braced) :
    ∃ before inside next after, tokens = before ++ (inside ++ next :: after) ∧
      before.map Token.lexeme = ⟨.startWord, ""⟩ :: front ∧ Spells inside bare.content ∧
      bare.Placed next.kind ∧
      ∀ opening closing : Token, opening.kind = .openCurly → closing.kind = .closeCurly →
        braced.IsReadingOf (before ++ opening :: (inside ++ closing :: next :: after)) := by
  obtain ⟨bareLexemes, bracedLexemes⟩ := located.lexemes_eq
  obtain ⟨behind, split, ended⟩ := exists_behind_ending tokens
  have spelled : (beforeEnding tokens).map Token.lexeme =
      (⟨.startWord, ""⟩ :: front) ++ (lexemes bare.content ++ (back ++ [⟨.endWord, ""⟩])) := by
    have whole : (beforeEnding tokens).map Token.lexeme = lexemes body.programMarks := reading.2
    rw [whole, Body.lexemes_programMarks, bareLexemes]
    simp
  obtain ⟨before, rest, tokensEq, early, further⟩ := List.map_eq_append_iff.mp spelled
  obtain ⟨inside, others, restEq, middle, late⟩ := List.map_eq_append_iff.mp further
  obtain ⟨next, more, rfl⟩ : ∃ next more, others = next :: more := by
    apply List.exists_cons_of_ne_nil
    rintro rfl
    simp at late
  obtain ⟨placed, follows⟩ := located.placed [⟨.endWord, ""⟩] reading.1.1
  have visible : ∀ token ∈ before ++ (inside ++ next :: more), token.kind ≠ .endOfInput := by
    rw [← restEq, ← tokensEq]
    exact fun _ => kind_ne_of_mem_beforeEnding
  refine ⟨before, inside, next, more ++ behind, ?_, early, middle, ?_, ?_⟩
  · rw [split, tokensEq, restEq]
    simp
  · rw [← late] at placed
    exact placed
  · intro opening closing opens closes
    have opened : opening.lexeme = ⟨.openCurly, ""⟩ := by
      simp [Token.lexeme, opens, Token.Kind.isOpen]
    have closed : closing.lexeme = ⟨.closeCurly, ""⟩ := by
      simp [Token.lexeme, closes, Token.Kind.isOpen]
    have stillVisible : ∀ token ∈ before ++ opening :: (inside ++ closing :: next :: more),
        token.kind ≠ .endOfInput := by
      simp only [List.forall_mem_append, List.forall_mem_cons] at visible ⊢
      obtain ⟨inFront, inMiddle, behindMiddle⟩ := visible
      exact ⟨inFront, by simp [opens], inMiddle, by simp [closes], behindMiddle⟩
    have kept : beforeEnding (before ++ opening :: (inside ++ closing :: next :: (more ++ behind)))
        = before ++ opening :: (inside ++ closing :: next :: more) := by
      simpa [ended] using beforeEnding_append stillVisible behind
    have written : (before ++ opening :: (inside ++ closing :: next :: more)).map Token.lexeme =
        lexemes braced.programMarks := by
      rw [Body.lexemes_programMarks, bracedLexemes, List.map_append, early, List.map_cons, opened,
        List.map_append, middle, List.map_cons, closed, late]
      simp [enclosed, lexemes, Mark.fixed]
    refine ⟨⟨follows, located.ne_nil.2⟩, ?_⟩
    rw [kept]
    exact written

/-- Braces around the bare body of an `if` never change what is parsed. A parse that succeeds
has found one program in the tokens, with each body in its place. The tokens of a body without
braces are exactly those that the parser of bodies takes there, and with braces around them
the parse gives the same tree and applies the same productions. -/
theorem tokens_braces {tokens : List Token} {program : Program}
    (parsed : (Parse.tokens tokens).1 = .ok program) :
    (∃! body : Body, body.IsReadingOf tokens) ∧
    ∀ (body bare braced : Body) (front back : List Lexeme), body.IsReadingOf tokens →
      Body.Bare bare body front back braced →
      ∃ before inside next after, tokens = before ++ (inside ++ next :: after) ∧
        before.map Token.lexeme = ⟨.startWord, ""⟩ :: front ∧ Spells inside bare.content ∧
        (∀ depth steps, inside.length ≤ steps →
          Reads depth (Nested.within steps (depthLimit - depth)).body (raised bare.content)
            (· = next.kind) (· = bare.tree) bare.rules) ∧
        ∀ opening closing : Token, opening.kind = .openCurly → closing.kind = .closeCurly →
          (Parse.tokens (before ++ opening :: (inside ++ closing :: next :: after))).1 =
              .ok program ∧
            (Parse.tokens (before ++ opening :: (inside ++ closing :: next :: after))).2.reductions
              = (Parse.tokens tokens).2.reductions := by
  obtain ⟨body, placed, spelled⟩ := exists_body_of_derives (derives_of_parsed parsed)
  have reading : body.IsReadingOf tokens := ⟨placed, spelled⟩
  refine ⟨⟨body, reading, fun other otherReading => otherReading.unique reading⟩, ?_⟩
  intro body bare braced front back reading located
  have fits : peak body.programMarks ≤ 128 := (tokens_ok_iff_peak reading).mp ⟨program, parsed⟩
  obtain ⟨tree, reductions⟩ := tokens_of_reading reading fits
  obtain rfl : program = ⟨body.tree⟩ := Except.ok.inj (parsed.symm.trans tree)
  obtain ⟨before, inside, next, after, split, early, middle, ends, brace⟩ :=
    exists_split_of_bare reading located
  refine ⟨before, inside, next, after, split, early, middle, ?_, ?_⟩
  · intro depth steps enough
    rw [middle.length_eq] at enough
    exact (within_reads steps (depthLimit - depth) depth rfl).body bare next.kind ends enough
  · intro opening closing opens closes
    have stillFits : peak braced.programMarks ≤ 128 := by
      rwa [located.peak_programMarks]
    obtain ⟨otherTree, otherReductions⟩ :=
      tokens_of_reading (brace opening closing opens closes) stillFits
    obtain ⟨sameTree, sameRules, sameLength⟩ := located.tree_eq
    rw [otherTree, otherReductions, reductions, sameTree, Body.rules, Body.rules, sameRules,
      sameLength]
    exact ⟨rfl, rfl⟩

/-- In `Start if (a < b) if (a < b) x = 1 else if (a < b) x = 1 End` the `else` belongs to the
second `if`, and braces around the body of the first one change nothing. -/
theorem tokens_braces_dangling :
    let opening : List Token := [⟨.ifWord, "if", {}⟩, ⟨.openParen, "(", {}⟩,
      ⟨.identifier, "a", {}⟩, ⟨.less, "<", {}⟩, ⟨.identifier, "b", {}⟩, ⟨.closeParen, ")", {}⟩]
    let assigns : List Token :=
      [⟨.identifier, "x", {}⟩, ⟨.assignment, "=", {}⟩, ⟨.number, "1", {}⟩]
    let before : List Token := ⟨.startWord, "Start", {}⟩ :: opening
    let inside : List Token :=
      opening ++ (assigns ++ ⟨.elseWord, "else", {}⟩ :: (opening ++ assigns))
    let ending : Token := ⟨.endWord, "End", {}⟩
    let block : Block := .cons (.assign ⟨⟨"x"⟩, .number "1"⟩) .nil
    let condition : StartEnd.Condition := ⟨.symbol ⟨"a"⟩, .lt, .symbol ⟨"b"⟩⟩
    let program : Program := ⟨.cons (.branch (.last condition
      (.cons (.branch (.orElse condition block (.last condition block))) .nil))) .nil⟩
    (Parse.tokens (before ++ (inside ++ [ending]))).1 = .ok program ∧
      (Parse.tokens (before ++ ⟨.openCurly, "\x7b", {}⟩ :: (inside ++ ⟨.closeCurly, "\x7d", {}⟩ ::
        [ending]))).1 = .ok program := by
  intro opening assigns before inside ending block condition program
  let test : Concrete.Condition := ⟨.symbol ⟨"a"⟩, .lt, .symbol ⟨"b"⟩⟩
  let statements : Body := .cons (.assign ⟨⟨"x"⟩, .number "1"⟩) .nil
  let bare : Body := .cons (.branch (.orElse test false statements
    (.last test false statements))) .nil
  have parsed : (Parse.tokens (before ++ (inside ++ [ending]))).1 = .ok program := by
    decide +kernel
  have reading : (Body.cons (.branch (.last test false bare)) .nil).IsReadingOf
      (before ++ (inside ++ [ending])) := by
    have assignsOnly : ∀ kind, Settles .lowest kind → ¬ BeginsStatement kind →
        statements.Follow kind := fun _ settles stops => ⟨⟨trivial, settles⟩, stops⟩
    have beforeElse : statements.Follow .elseWord := assignsOnly _ (by decide) (by decide)
    have beforeEnd : statements.Follow .endWord := assignsOnly _ (by decide) (by decide)
    have stops : ¬ BeginsStatement .endWord := by decide
    have fits : test.Fits := ⟨trivial, trivial⟩
    constructor
    · exact ⟨⟨⟨fits, ⟨⟨fits, beforeElse, nofun, fits, beforeEnd, nofun, nofun⟩, stops⟩, nofun,
        nofun⟩, stops⟩, nofun⟩
    · rfl
  obtain ⟨_, same⟩ := tokens_braces parsed
  obtain ⟨front, middle, next, after, split, early, spelled, _, brace⟩ :=
    same _ bare _ _ _ reading (.first .nil (.branch (.last test)))
  have sizes : front.length = (lexemes test.opening).length + 1 := by
    simpa using congrArg List.length early
  obtain ⟨rfl, behind⟩ := List.append_inj split sizes.symm
  obtain ⟨rfl, ends⟩ := List.append_inj behind spelled.length_eq.symm
  obtain ⟨rfl, rfl⟩ := List.cons.inj ends
  exact ⟨parsed, (brace _ _ rfl rfl).1⟩

end Parse

end StartEnd
