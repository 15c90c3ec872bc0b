import StartEnd.Position
import StartEnd.Token.Kind

/-!
# Tokens

A token is a kind, the text it was written as, and the stretch of source it came
from. The end of the input is a token too, so that every text has a last one.
-/

namespace StartEnd

/-- A classified piece of source text. -/
structure Token where
  kind : Token.Kind
  value : String
  span : Span := {}
deriving DecidableEq, Inhabited

namespace Token

/-- The token that stands for the end of the input at a position. -/
def ending (position : Position) : Token :=
  { kind := .endOfInput, value := "EOF", span := .point position }

/-- The token over several lines: its kind and its text. -/
def display (token : Token) : String :=
  "Token \x7b\nkind: " ++ token.kind.name ++ ",\nvalue: " ++ token.value ++ "\x7d"

/-- The token on one line: its kind, and its text where the kind leaves it open. -/
def summary (token : Token) : String :=
  if token.kind = .identifier ∨ token.kind = .number then
    token.kind.name ++ " (" ++ token.value ++ ")"
  else token.kind.name ++ " ()"

end Token

end StartEnd
