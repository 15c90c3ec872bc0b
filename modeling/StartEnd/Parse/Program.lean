import StartEnd.Parse.Statement

/-!
# Parsing programs

A program is a body between the opening and the closing word, with nothing behind.
It is parsed from a stream of items, from tokens, or from a source text; the stream
of a text is what reading the text delivers. The first fault in the order of the
stream is the one reported, whether it comes from the text or from the grammar.
-/

namespace StartEnd

namespace Parse

/-- A whole program. -/
def program : Parse Program := do
  let _ ← expect .startWord
  let body ← (← nested).body
  let _ ← expectBodyEnd .endWord
  let _ ← expect .endOfInput
  reduce .program
  return ⟨body⟩

/-- The state before the first item of a stream, with the tables of the language. -/
def State.initial (stream : List Item) : State := { stream := stream, tables := .standard }

/-- The program in a stream of items, and the state behind it. -/
def items (stream : List Item) : Except Fault Program × State :=
  runOn program (.initial stream)

/-- The program in a list of tokens, and the state behind it. -/
def tokens (tokens : List Token) : Except Fault Program × State :=
  items (tokens.map Except.ok)

/-- The program in a source text, and the state behind it. -/
def source (text : String) : Except Fault Program × State := items (Source.items text)

end Parse

/-- The program in a source text, or the first fault. -/
def Program.parse (text : String) : Except Fault Program := (Parse.source text).1

end StartEnd
