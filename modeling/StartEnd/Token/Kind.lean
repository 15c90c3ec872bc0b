/-!
# Kinds of tokens

The kinds are closed: the end of the input, the two open classes of numbers and
identifiers, the eighteen operators and brackets, and the ten reserved words.
Their order here is the order in which a list of kinds is sorted and reported.
-/

namespace StartEnd

/-- What a token is, apart from its text. -/
inductive Token.Kind where
  | endOfInput
  | number
  | identifier
  | dash
  | minusMinus
  | notEquals
  | openParen
  | closeParen
  | star
  | starStar
  | comma
  | slash
  | semicolon
  | openCurly
  | closeCurly
  | plus
  | plusPlus
  | less
  | assignment
  | equals
  | greater
  | elseWord
  | endWord
  | floatWord
  | funcWord
  | ifWord
  | intWord
  | repWord
  | retWord
  | startWord
  | stringWord
deriving DecidableEq, Inhabited

namespace Token.Kind

/-- Every kind once, in order. -/
def all : List Kind :=
  [endOfInput, number, identifier, dash, minusMinus, notEquals, openParen, closeParen, star,
    starStar, comma, slash, semicolon, openCurly, closeCurly, plus, plusPlus, less, assignment,
    equals, greater, elseWord, endWord, floatWord, funcWord, ifWord, intWord, repWord, retWord,
    startWord, stringWord]

/-- The place of a kind in the order of kinds. -/
def rank (kind : Kind) : Nat := kind.ctorIdx

/-- The name of a kind in listings and in stored documents. -/
def name : Kind → String
  | endOfInput => "EOF"
  | number => "Number"
  | identifier => "Identifier"
  | dash => "Dash"
  | minusMinus => "MinusMinus"
  | notEquals => "NotEquals"
  | openParen => "OpenParen"
  | closeParen => "CloseParen"
  | star => "Star"
  | starStar => "StarStar"
  | comma => "Comma"
  | slash => "Slash"
  | semicolon => "Semicolon"
  | openCurly => "OpenCurly"
  | closeCurly => "CloseCurly"
  | plus => "Plus"
  | plusPlus => "PlusPlus"
  | less => "Less"
  | assignment => "Assignment"
  | equals => "Equals"
  | greater => "Greater"
  | elseWord => "Else"
  | endWord => "End"
  | floatWord => "Float"
  | funcWord => "Func"
  | ifWord => "If"
  | intWord => "Int"
  | repWord => "Rep"
  | retWord => "Ret"
  | startWord => "Start"
  | stringWord => "String"

/-- The kind with a given name. -/
def ofName? (text : String) : Option Kind := all.find? (·.name = text)

/-- The only text that a token of this kind can have; the open classes and the
end of the input have none. -/
def lexeme? : Kind → Option String
  | endOfInput | number | identifier => none
  | dash => some "-"
  | minusMinus => some "--"
  | notEquals => some "!="
  | openParen => some "("
  | closeParen => some ")"
  | star => some "*"
  | starStar => some "**"
  | comma => some ","
  | slash => some "/"
  | semicolon => some ";"
  | openCurly => some "\x7b"
  | closeCurly => some "\x7d"
  | plus => some "+"
  | plusPlus => some "++"
  | less => some "<"
  | assignment => some "="
  | equals => some "=="
  | greater => some ">"
  | elseWord => some "else"
  | endWord => some "End"
  | floatWord => some "float"
  | funcWord => some "func"
  | ifWord => some "if"
  | intWord => some "int"
  | repWord => some "rep"
  | retWord => some "ret"
  | startWord => some "Start"
  | stringWord => some "string"

/-- The reserved words of the language and their kinds. -/
def reservedWords : List (String × Kind) :=
  [("else", elseWord), ("End", endWord), ("float", floatWord), ("func", funcWord),
    ("if", ifWord), ("int", intWord), ("rep", repWord), ("ret", retWord), ("Start", startWord),
    ("string", stringWord)]

/-- The kinds of the reserved words. -/
def reserved : List Kind := reservedWords.map Prod.snd

/-- Whether a kind is a reserved word. -/
def isReserved (kind : Kind) : Bool := kind ∈ reserved

/-- The kind of the reserved word that a text is, if it is one. -/
def ofReserved? (text : String) : Option Kind := reservedWords.lookup text

/-- The kind as messages show it: its text between backticks, or a description. -/
def describe (kind : Kind) : String :=
  match kind.lexeme? with
  | some text => "`" ++ text ++ "`"
  | none =>
    match kind with
    | number => "number"
    | identifier => "identifier"
    | _ => "end of input"

/-- Puts a kind in front of the first one that does not come before it. -/
def insertSorted (kind : Kind) : List Kind → List Kind
  | [] => [kind]
  | first :: rest =>
    if kind.rank ≤ first.rank then kind :: first :: rest else first :: insertSorted kind rest

/-- Kinds in their order, repetitions kept. -/
def sort (kinds : List Kind) : List Kind := kinds.foldr insertSorted []

/-- Every kind is listed. -/
@[simp] theorem mem_all (kind : Kind) : kind ∈ all := by cases kind <;> decide

/-- Insertion adds one kind and loses none. -/
theorem insertSorted_perm (kind : Kind) (kinds : List Kind) :
    (insertSorted kind kinds).Perm (kind :: kinds) := by
  induction kinds with
  | nil => exact .refl _
  | cons first rest inductionHypothesis =>
    by_cases before : kind.rank ≤ first.rank
    · simp [insertSorted, before]
    · simpa [insertSorted, before] using
        (inductionHypothesis.cons first).trans (.swap kind first rest)

/-- Sorting loses no kind and repeats none. -/
theorem sort_perm (kinds : List Kind) : (sort kinds).Perm kinds := by
  induction kinds with
  | nil => exact .refl _
  | cons first rest inductionHypothesis =>
    exact (insertSorted_perm first (sort rest)).trans (inductionHypothesis.cons first)

/-- Each reserved word is the only text of its kind. -/
theorem lexeme?_of_reserved : ∀ word ∈ reservedWords, word.2.lexeme? = some word.1 := by decide

/-- A text is no reserved word exactly if it is the only text of none of their kinds. -/
theorem ofReserved?_eq_none_iff {text : String} :
    ofReserved? text = none ↔ ∀ kind ∈ reserved, kind.lexeme? ≠ some text := by
  rw [ofReserved?, List.lookup_eq_none_iff, reserved, List.forall_mem_map]
  refine forall₂_congr fun word listed => ?_
  rw [lexeme?_of_reserved word listed, bne_iff_ne, ne_comm, Ne, Ne, Option.some.injEq]

/-- The kind that is found for a reserved word is reserved, and the word is its only text. -/
theorem lexeme?_of_ofReserved? {text : String} {kind : Kind}
    (found : ofReserved? text = some kind) : kind ∈ reserved ∧ kind.lexeme? = some text := by
  obtain ⟨front, back, split, _⟩ := List.lookup_eq_some_iff.mp found
  have listed : (text, kind) ∈ reservedWords := by simp [split]
  exact ⟨List.mem_map_of_mem listed, lexeme?_of_reserved _ listed⟩

/-- The listing is strictly increasing. -/
theorem all_increasing : all.Pairwise fun left right => left.rank < right.rank := by decide

end Token.Kind

end StartEnd
