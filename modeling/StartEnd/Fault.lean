import StartEnd.Text.Quoted
import StartEnd.Token

/-!
# What can go wrong with a program

A text fails to be a program for one of four reasons: a character outside the
language, a token where another was needed, an end that comes too early, and
constructs nested too deeply. A fault is such a cause together with the position
where it was found. The wording of messages and tips stands here and nowhere else.
-/

namespace StartEnd

/-- Why a text is not a program. -/
inductive Fault.Cause where
  | unrecognisedCharacter (character : Char)
  | unexpectedToken (token : String) (expected : List Token.Kind)
  | unexpectedEndOfInput (expected : List Token.Kind)
  | nestingTooDeep (limit : UInt64)
deriving DecidableEq

/-- A cause and the position where it was found. -/
structure Fault where
  cause : Fault.Cause
  position : Position
deriving DecidableEq

/-- The stage at which a text fails: as characters or as tokens. -/
inductive Fault.Stage where
  | lexical
  | parse
deriving DecidableEq

/-- The name of a stage. -/
def Fault.Stage.name : Stage → String
  | .lexical => "Lexical"
  | .parse => "Parse"

/-- Kinds as a message lists them: `a`, `a or b`, `one of a, b, c`. -/
def describeExpected (expected : List Token.Kind) : String :=
  match expected.map Token.Kind.describe with
  | [] => "nothing"
  | [single] => single
  | [first, second] => first ++ " or " ++ second
  | many => "one of " ++ ", ".intercalate many

namespace Fault.Cause

/-- The name of a cause. -/
def name : Cause → String
  | unrecognisedCharacter _ => "UnrecognisedCharacter"
  | unexpectedToken _ _ => "UnexpectedToken"
  | unexpectedEndOfInput _ => "UnexpectedEndOfInput"
  | nestingTooDeep _ => "NestingTooDeep"

/-- The stage at which a cause arises. -/
def stage : Cause → Stage
  | unrecognisedCharacter _ => .lexical
  | unexpectedToken _ _ | unexpectedEndOfInput _ | nestingTooDeep _ => .parse

/-- The kinds that would have been accepted, if the cause is about kinds. -/
def expected : Cause → List Token.Kind
  | unexpectedToken _ kinds | unexpectedEndOfInput kinds => kinds
  | unrecognisedCharacter _ | nestingTooDeep _ => []

/-- What went wrong, without the position. -/
def message : Cause → String
  | unrecognisedCharacter character =>
    "unrecognised character " ++ Text.quotedCharacter character
  | unexpectedToken token kinds =>
    "unexpected token `" ++ token ++ "`, expected " ++ describeExpected kinds
  | unexpectedEndOfInput kinds => "unexpected end of input, expected " ++ describeExpected kinds
  | nestingTooDeep limit => "nesting deeper than " ++ toString limit.toNat ++ " levels"

/-- Advice for the reader of a diagnostic. A premature end has some only where
the program's closing word was among the wanted tokens. -/
def tip? : Cause → Option String
  | unrecognisedCharacter character =>
    some ("`" ++ Text.escape ['\'', '"'] character ++ "` is not part of the language")
  | unexpectedToken token [] => some ("Unexpected token: `" ++ token ++ "`")
  | unexpectedToken token kinds =>
    some ("Unexpected token: `" ++ token ++ "`, expected " ++ describeExpected kinds)
  | unexpectedEndOfInput kinds =>
    if .endWord ∈ kinds then some "Programs must be closed with `End`" else none
  | nestingTooDeep limit =>
    some ("Nesting is limited to " ++ toString limit.toNat ++
      " levels, split the program into functions")

end Fault.Cause

namespace Fault

/-- The fault of a token that stands where one of the given kinds was needed. -/
def unexpected (token : Token) (expected : List Token.Kind) : Fault where
  cause :=
    if token.kind = .endOfInput then .unexpectedEndOfInput expected
    else .unexpectedToken token.value expected
  position := token.span.start

/-- The fault at a token names the kinds it was given. -/
@[simp] theorem expected_unexpected (token : Token) (expected : List Token.Kind) :
    (unexpected token expected).cause.expected = expected := by
  unfold unexpected
  split <;> rfl

/-- What went wrong and where. -/
def message (fault : Fault) : String :=
  fault.cause.message ++ " at " ++ fault.position.display

end Fault

end StartEnd
