import Mathlib.Data.List.Basic
import StartEnd.Parse.State

/-!
# Tokens as a parse sees them

A parse looks at the kind of a token, and at its text only where the kind leaves the
text open. That much of a token is its lexeme.

A written construct is a list of marks: lexemes together with the number of
constructs that are open around each. The levels count from the place where the
construct stands, so a construct inside another is the same list one level higher.
The peak of a list of marks is the number of constructs that it needs. A list that
needs more than may be open overflows at its first mark above the limit.
-/

namespace StartEnd

/-- The kind of a token, and its text where the kind leaves it open. -/
structure Lexeme where
  kind : Token.Kind
  text : String := ""
deriving DecidableEq

/-- Whether tokens of a kind differ in their text. -/
def Token.Kind.isOpen (kind : Token.Kind) : Bool := kind = .identifier || kind = .number

/-- What a parse can see of a token. -/
def Token.lexeme (token : Token) : Lexeme :=
  ⟨token.kind, if token.kind.isOpen then token.value else ""⟩

/-- A lexeme shows the kind of its token. -/
@[simp] theorem Token.lexeme_kind (token : Token) : token.lexeme.kind = token.kind := rfl

/-- A token with the lexeme of a name has the text of the name. -/
theorem Token.value_of_lexeme {token : Token} {kind : Token.Kind} {text : String}
    (isOpen : kind.isOpen = true) (spelled : token.lexeme = ⟨kind, text⟩) :
    token.value = text := by
  obtain ⟨rfl, same⟩ := Lexeme.mk.inj spelled
  simpa [isOpen] using same

/-- A lexeme and the number of constructs that are open around it. -/
structure Mark extends Lexeme where
  level : Nat := 0
deriving DecidableEq

namespace Mark

/-- The mark of a token whose kind fixes its text. -/
def fixed (kind : Token.Kind) : Mark := { kind := kind }

/-- The mark of a name. -/
def named (text : String) : Mark := { kind := .identifier, text := text }

/-- The mark of a number. -/
def digits (text : String) : Mark := { kind := .number, text := text }

@[simp] theorem fixed_kind (kind : Token.Kind) : (fixed kind).kind = kind := rfl
@[simp] theorem named_kind (text : String) : (named text).kind = .identifier := rfl
@[simp] theorem digits_kind (text : String) : (digits text).kind = .number := rfl
@[simp] theorem fixed_level (kind : Token.Kind) : (fixed kind).level = 0 := rfl
@[simp] theorem named_level (text : String) : (named text).level = 0 := rfl
@[simp] theorem digits_level (text : String) : (digits text).level = 0 := rfl

/-- The same lexeme inside one construct more. -/
def raise (mark : Mark) : Mark := { mark with level := mark.level + 1 }

@[simp] theorem raise_kind (mark : Mark) : mark.raise.kind = mark.kind := rfl
@[simp] theorem raise_toLexeme (mark : Mark) : mark.raise.toLexeme = mark.toLexeme := rfl
@[simp] theorem raise_level (mark : Mark) : mark.raise.level = mark.level + 1 := rfl

end Mark

/-- The same marks inside one construct more. -/
def raised (marks : List Mark) : List Mark := marks.map Mark.raise

@[simp] theorem raised_nil : raised [] = [] := rfl

@[simp] theorem raised_cons (first : Mark) (rest : List Mark) :
    raised (first :: rest) = first.raise :: raised rest := rfl

@[simp] theorem raised_append (front back : List Mark) :
    raised (front ++ back) = raised front ++ raised back := List.map_append

@[simp] theorem raised_eq_nil_iff (marks : List Mark) : raised marks = [] ↔ marks = [] :=
  List.map_eq_nil_iff

@[simp] theorem length_raised (marks : List Mark) : (raised marks).length = marks.length :=
  List.length_map _

/-- A construct has an ending exactly when its content has. -/
theorem visible_raised_iff {marks : List Mark} :
    (∀ mark ∈ raised marks, mark.kind ≠ .endOfInput) ↔
      ∀ mark ∈ marks, mark.kind ≠ .endOfInput := List.forall_mem_map

/-- A construct has the lexemes of its content. -/
@[simp] theorem map_toLexeme_raised (marks : List Mark) :
    (raised marks).map Mark.toLexeme = marks.map Mark.toLexeme := by
  simp [raised, Function.comp_def]

/-- Tokens write down marks when they have the same lexemes. -/
def Spells (tokens : List Token) (marks : List Mark) : Prop :=
  tokens.map Token.lexeme = marks.map Mark.toLexeme

/-- There are as many marks as tokens that write them down. -/
theorem Spells.length_eq {tokens : List Token} {marks : List Mark}
    (spelled : Spells tokens marks) : tokens.length = marks.length := by
  simpa using congrArg List.length spelled

/-- The kinds of the tokens are those of the marks. -/
theorem Spells.kinds {tokens : List Token} {marks : List Mark}
    (spelled : Spells tokens marks) : tokens.map Token.kind = marks.map (·.kind) := by
  simpa [Function.comp_def] using congrArg (List.map Lexeme.kind) spelled

/-- None of the tokens is an ending exactly when none of the marks is. -/
theorem Spells.visible_iff {tokens : List Token} {marks : List Mark}
    (spelled : Spells tokens marks) :
    (∀ token ∈ tokens, token.kind ≠ .endOfInput) ↔ ∀ mark ∈ marks, mark.kind ≠ .endOfInput := by
  have onTokens : (∀ kind ∈ tokens.map Token.kind, kind ≠ .endOfInput) ↔
      ∀ token ∈ tokens, token.kind ≠ .endOfInput := List.forall_mem_map
  have onMarks : (∀ kind ∈ marks.map (·.kind), kind ≠ .endOfInput) ↔
      ∀ mark ∈ marks, mark.kind ≠ .endOfInput := List.forall_mem_map
  rw [← onTokens, ← onMarks, spelled.kinds]

/-- Tokens of two lists of marks are the tokens of each, one after the other. -/
theorem spells_append_iff {tokens : List Token} {front back : List Mark} :
    Spells tokens (front ++ back) ↔
      ∃ first second, tokens = first ++ second ∧ Spells first front ∧ Spells second back := by
  simp only [Spells, List.map_append]
  exact List.map_eq_append_iff

/-- The first token writes down the first mark and the others the rest. -/
theorem spells_cons_iff {tokens : List Token} {mark : Mark} {marks : List Mark} :
    Spells tokens (mark :: marks) ↔
      ∃ token rest, tokens = token :: rest ∧ token.lexeme = mark.toLexeme ∧
        Spells rest marks := by
  simp only [Spells, List.map_cons]
  exact List.map_eq_cons_iff

@[simp] theorem spells_nil_iff {tokens : List Token} : Spells tokens [] ↔ tokens = [] := by
  simp [Spells]

@[simp] theorem spells_raised_iff {tokens : List Token} {marks : List Mark} :
    Spells tokens (raised marks) ↔ Spells tokens marks := by
  simp [Spells]

/-- Tokens in a row write down marks in a row. -/
theorem Spells.append {first second : List Token} {front back : List Mark}
    (early : Spells first front) (late : Spells second back) :
    Spells (first ++ second) (front ++ back) :=
  spells_append_iff.mpr ⟨first, second, rfl, early, late⟩

/-- A token whose kind fixes its text writes down the mark of its kind. -/
theorem spells_fixed {token : Token} {kind : Token.Kind} (same : token.kind = kind)
    (closed : kind.isOpen = false) : Spells [token] [.fixed kind] := by
  simp [Spells, Token.lexeme, Mark.fixed, same, closed]

/-- A token of the kind of names writes down the mark of a name. -/
theorem spells_named {token : Token} (same : token.kind = .identifier) :
    Spells [token] [.named token.value] := by
  simp [Spells, Token.lexeme, Mark.named, same, Token.Kind.isOpen]

/-- A token of the kind of numbers writes down the mark of a number. -/
theorem spells_digits {token : Token} (same : token.kind = .number) :
    Spells [token] [.digits token.value] := by
  simp [Spells, Token.lexeme, Mark.digits, same, Token.Kind.isOpen]

/-- The number of constructs that marks need. -/
def peak (marks : List Mark) : Nat := (marks.map Mark.level).foldr max 0

@[simp] theorem peak_nil : peak [] = 0 := rfl

@[simp] theorem peak_cons (first : Mark) (rest : List Mark) :
    peak (first :: rest) = max first.level (peak rest) := rfl

@[simp] theorem peak_append (front back : List Mark) :
    peak (front ++ back) = max (peak front) (peak back) := by
  induction front with
  | nil => simp
  | cons first rest inductionHypothesis => simp [inductionHypothesis, Nat.max_assoc]

/-- A construct that is not empty needs one construct more than its content. -/
theorem peak_raised {marks : List Mark} (present : marks ≠ []) :
    peak (raised marks) = peak marks + 1 := by
  induction marks with
  | nil => exact absurd rfl present
  | cons first rest inductionHypothesis =>
    rcases rest with _ | ⟨second, others⟩
    · simp
    · have further : peak (raised (second :: others)) = peak (second :: others) + 1 :=
        inductionHypothesis (by simp)
      rw [raised_cons, peak_cons, further, peak_cons first, Mark.raise_level]
      omega

/-- The first token at which more constructs would be open than may be, when the
given number of constructs is open around all of them. -/
def overflow (depth : Nat) (tokens : List Token) (marks : List Mark) : Option Token :=
  ((tokens.zip marks).find? fun pair => Parse.depthLimit < depth + pair.2.level).map Prod.fst

@[simp] theorem overflow_nil (depth : Nat) (tokens : List Token) :
    overflow depth tokens [] = none := by
  simp [overflow]

/-- Marks overflow at the first of them, or else where the others do. -/
@[simp] theorem overflow_cons (depth : Nat) (token : Token) (tokens : List Token) (mark : Mark)
    (marks : List Mark) :
    overflow depth (token :: tokens) (mark :: marks) =
      if Parse.depthLimit < depth + mark.level then some token
      else overflow depth tokens marks := by
  by_cases above : Parse.depthLimit < depth + mark.level
  · simp [overflow, above]
  · simp [overflow, above]

/-- The first list of marks overflows before the second one. -/
theorem overflow_append {first second : List Token} {front back : List Mark}
    (spelled : Spells first front) (depth : Nat) :
    overflow depth (first ++ second) (front ++ back) =
      (overflow depth first front).or (overflow depth second back) := by
  unfold overflow
  rw [List.zip_append spelled.length_eq, List.find?_append, Option.map_or]

/-- Inside a construct there is room for one construct less. -/
theorem overflow_raised (depth : Nat) (tokens : List Token) (marks : List Mark) :
    overflow depth tokens (raised marks) = overflow (depth + 1) tokens marks := by
  induction tokens generalizing marks with
  | nil => simp [overflow]
  | cons token tokens inductionHypothesis =>
    rcases marks with _ | ⟨mark, marks⟩
    · simp
    · have same : depth + (mark.level + 1) = depth + 1 + mark.level := by omega
      rw [raised_cons, overflow_cons, overflow_cons, Mark.raise_level, same,
        inductionHypothesis marks]

/-- Marks outside all constructs do not overflow. -/
theorem overflow_flat {depth : Nat} (room : depth ≤ Parse.depthLimit) (token : Token)
    {mark : Mark} (flat : mark.level = 0) : overflow depth [token] [mark] = none := by
  simp [flat, Nat.not_lt.mpr room]

/-- A list of marks overflows exactly when its peak is above the limit. -/
theorem overflow_eq_none_iff {depth : Nat} (room : depth ≤ Parse.depthLimit)
    {tokens : List Token} {marks : List Mark} (spelled : Spells tokens marks) :
    overflow depth tokens marks = none ↔ depth + peak marks ≤ Parse.depthLimit := by
  induction marks generalizing tokens with
  | nil => simpa using room
  | cons mark marks inductionHypothesis =>
    obtain ⟨token, rest, rfl, _, others⟩ := spells_cons_iff.mp spelled
    rw [overflow_cons, peak_cons]
    split
    · simp only [reduceCtorEq, false_iff]
      omega
    · rw [inductionHypothesis others]
      omega

end StartEnd
