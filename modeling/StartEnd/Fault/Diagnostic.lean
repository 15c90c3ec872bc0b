import StartEnd.Fault
import StartEnd.Text.Blank

/-!
# Diagnostics

A diagnostic shows the source line of a fault with a caret under its column. Lines
keep their line feed when they are looked up. The line is shown without white space
at its ends, and the caret moves left by as many places as there were spaces and
tabs in front.
-/

namespace StartEnd

/-- The lines of a text, each with the line feed that ends it. -/
def splitLines : List Char → List (List Char)
  | [] => []
  | first :: rest =>
    if first = '\n' then [first] :: splitLines rest
    else
      match splitLines rest with
      | [] => [[first]]
      | line :: lines => (first :: line) :: lines

/-- The lines of a text put together are the text. -/
theorem flatten_splitLines (text : List Char) : (splitLines text).flatten = text := by
  induction text with
  | nil => rfl
  | cons first rest inductionHypothesis =>
    by_cases ends : first = '\n'
    · simp [splitLines, ends, inductionHypothesis]
    · have rejoined := inductionHypothesis
      cases lines : splitLines rest with
      | nil =>
        rw [lines] at rejoined
        simpa [splitLines, ends, lines] using rejoined
      | cons line further =>
        rw [lines] at rejoined
        simpa [splitLines, ends, lines] using rejoined

/-- A line of a source together with a place in it. -/
structure SourceLine where
  number : Nat
  text : List Char
  /-- Characters of the line in front of the place. -/
  column : Nat
deriving DecidableEq

/-- The line of a position. There is no text where the source has no such line. -/
def SourceLine.at (source : String) (position : Position) : SourceLine where
  number := position.line.toNat
  text := ((splitLines source.toList)[position.line.toNat - 1]?).getD []
  column := position.column.toNat - 1

/-- Spaces and tabs, by which a displayed line is moved to the left. -/
def isIndent (character : Char) : Bool := character = ' ' || character = '\t'

/-- A text moved to the right end of a field. -/
def padLeft (fill : Char) (width : Nat) (text : String) : String :=
  String.ofList (List.replicate (width - text.length) fill) ++ text

/-- The diagnostic of a fault in a source with a given file name. -/
def Fault.render (fault : Fault) (source fileName : String) : String :=
  let line := SourceLine.at source fault.position
  let number := toString line.number
  let bar := padLeft ' ' (number.length + 2) "|"
  let indent := line.text.takeWhile isIndent
  let shown := String.ofList (Text.trimBlank (line.text.drop indent.length))
  let caret := padLeft '-' (line.column - indent.length + 1) "^"
  "Error: " ++ fault.cause.name ++ " (" ++ fault.cause.tip?.getD fault.message ++ ")\n" ++
    "-> " ++ fileName ++ "\n" ++
    bar ++ "\n" ++
    number ++ " | " ++ shown ++ "\n" ++
    bar ++ " " ++ caret ++ "\n"

end StartEnd
