import StartEnd.Text.Blank
import StartEnd.Token.Kind

/-!
# Lexical patterns

Four kinds of text can stand at the front of a source: a word, a run of digits, a
run of white space, and one of the fixed texts. A pattern takes as much as it can.
Among several patterns the longest match wins, and the earlier one where two are
equally long. Words and digits are ASCII only; white space is not.
-/

namespace StartEnd

/-- ASCII letters and the underscore, which begin a word. -/
def isWordStart (character : Char) : Bool := character.isAlpha || character = '_'

/-- ASCII letters, digits and the underscore, which continue a word. -/
def isWordPart (character : Char) : Bool := character.isAlphanum || character = '_'

/-- A class of text that can stand at the front of a source. -/
inductive Pattern where
  | word
  | digits
  | blanks
  | fixed (text : String) (kind : Token.Kind)
deriving DecidableEq

namespace Pattern

/-- The part of a text that a pattern takes from its front, empty if it takes none. -/
def taken (pattern : Pattern) (text : List Char) : List Char :=
  match pattern with
  | word =>
    match text with
    | [] => []
    | first :: rest => if isWordStart first then first :: rest.takeWhile isWordPart else []
  | digits => text.takeWhile Char.isDigit
  | blanks => text.takeWhile Text.isBlank
  | fixed lexeme _ => if lexeme.toList.isPrefixOf text then lexeme.toList else []

/-- The kind of token that the taken text makes; white space makes none. A word is
reserved only as a whole. -/
def kind? (pattern : Pattern) (taken : List Char) : Option Token.Kind :=
  match pattern with
  | word => some ((Token.Kind.ofReserved? (String.ofList taken)).getD .identifier)
  | digits => some .number
  | blanks => none
  | fixed _ kind => some kind

/-- Every pattern of the language. -/
def all : List Pattern :=
  [word, digits, blanks, fixed "\x7b" .openCurly, fixed "\x7d" .closeCurly,
    fixed "(" .openParen, fixed ")" .closeParen, fixed "==" .equals, fixed "!=" .notEquals,
    fixed "=" .assignment, fixed "<" .less, fixed ">" .greater, fixed ";" .semicolon,
    fixed "," .comma, fixed "++" .plusPlus, fixed "--" .minusMinus, fixed "**" .starStar,
    fixed "+" .plus, fixed "-" .dash, fixed "/" .slash, fixed "*" .star]

/-- Keeps the better of a match found so far and what another pattern takes. -/
def better (text : List Char) (best : Option (Pattern × List Char)) (pattern : Pattern) :
    Option (Pattern × List Char) :=
  let found := pattern.taken text
  if (best.elim 0 fun current => current.2.length) < found.length then some (pattern, found)
  else best

/-- The pattern that takes the most of a text, with what it takes; nothing if every
pattern takes nothing. -/
def longest? (table : List Pattern) (text : List Char) : Option (Pattern × List Char) :=
  table.foldl (better text) none

/-- What a pattern takes stands at the front of the text. -/
theorem taken_isPrefix (pattern : Pattern) (text : List Char) :
    pattern.taken text <+: text := by
  cases pattern with
  | word =>
    cases text with
    | nil => exact List.nil_prefix
    | cons first rest =>
      by_cases start : isWordStart first = true
      · simpa [taken, start] using List.takeWhile_prefix isWordPart
      · simp [taken, start]
  | digits => exact List.takeWhile_prefix _
  | blanks => exact List.takeWhile_prefix _
  | fixed lexeme kind =>
    by_cases front : lexeme.toList.isPrefixOf text = true
    · simpa [taken, front] using List.isPrefixOf_iff_prefix.mp front
    · simp [taken, front]

/-- The best match is what its own pattern takes, and it is not empty. -/
theorem longest?_eq_some {table : List Pattern} {text found : List Char} {pattern : Pattern}
    (best : longest? table text = some (pattern, found)) :
    pattern ∈ table ∧ found = pattern.taken text ∧ found ≠ [] := by
  have general : ∀ (remaining : List Pattern) (start : Option (Pattern × List Char)),
      (∀ current ∈ start, current.2 = current.1.taken text ∧ current.2 ≠ []) →
      remaining.foldl (better text) start = some (pattern, found) →
      (pattern ∈ remaining ∨ start = some (pattern, found)) ∧
        found = pattern.taken text ∧ found ≠ [] := by
    intro remaining
    induction remaining with
    | nil =>
      intro start known result
      simp only [List.foldl_nil] at result
      exact ⟨Or.inr result, known (pattern, found) (by simp [result])⟩
    | cons first rest inductionHypothesis =>
      intro start known result
      simp only [List.foldl_cons] at result
      by_cases longer : (start.elim 0 fun current => current.2.length) < (first.taken text).length
      · have chosen : better text start first = some (first, first.taken text) := by
          simp [better, longer]
        rw [chosen] at result
        have present : first.taken text ≠ [] := by
          intro empty
          simp [empty] at longer
        obtain ⟨origin, exact⟩ := inductionHypothesis _ (by simpa using present) result
        refine ⟨Or.inl ?_, exact⟩
        rcases origin with later | same
        · exact List.mem_cons_of_mem _ later
        · simp only [Option.some.injEq, Prod.mk.injEq] at same
          simp [same.1]
      · have kept : better text start first = start := by simp [better, longer]
        rw [kept] at result
        obtain ⟨origin, exact⟩ := inductionHypothesis start known result
        exact ⟨origin.imp_left (List.mem_cons_of_mem _), exact⟩
  obtain ⟨origin, exact⟩ := general table none (by simp) best
  exact ⟨by simpa using origin, exact⟩

end Pattern

end StartEnd
