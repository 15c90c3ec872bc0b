/-!
# Positions in a source text

A position is a byte offset together with a line and a column. Lines and columns
start at one, a column counts characters, and only the line feed ends a line.
All three are 32-bit words, so they are exact for every text of fewer than
2^32 - 1 bytes.
-/

namespace StartEnd

/-- A place in a source text: bytes before it, its line and its column. -/
structure Position where
  offset : UInt32 := 0
  line : UInt32 := 1
  column : UInt32 := 1
deriving DecidableEq, Inhabited

/-- A stretch of source text between two positions. -/
structure Span where
  start : Position := {}
  stop : Position := {}
deriving DecidableEq, Inhabited

/-- The empty span at a position. -/
def Span.point (position : Position) : Span := { start := position, stop := position }

/-- The number of bytes that a text takes in UTF-8. -/
def byteLength (text : List Char) : Nat :=
  text.foldr (fun character count => character.utf8Size + count) 0

/-- The position as messages show it: line and column around a colon. -/
def Position.display (position : Position) : String :=
  toString position.line.toNat ++ ":" ++ toString position.column.toNat

/-- The position one character further, its offset left to `Position.after`. -/
def Position.step (position : Position) (character : Char) : Position :=
  if character = '\n' then { position with line := position.line + 1, column := 1 }
  else { position with column := position.column + 1 }

/-- The position reached from another one by reading a text. -/
def Position.after (position : Position) (text : List Char) : Position :=
  let moved := text.foldl Position.step position
  { moved with offset := position.offset + (byteLength text).toUInt32 }

/-- The empty text has no bytes. -/
@[simp] theorem byteLength_nil : byteLength [] = 0 := rfl

/-- A text starts with the bytes of its first character. -/
@[simp] theorem byteLength_cons (character : Char) (text : List Char) :
    byteLength (character :: text) = character.utf8Size + byteLength text := rfl

/-- Bytes add up over concatenation. -/
@[simp] theorem byteLength_append (left right : List Char) :
    byteLength (left ++ right) = byteLength left + byteLength right := by
  induction left with
  | nil => simp
  | cons character left inductionHypothesis =>
    rw [List.cons_append, byteLength_cons, inductionHypothesis, byteLength_cons, Nat.add_assoc]

/-- Reading nothing stays in place. -/
@[simp] theorem Position.after_nil (position : Position) : position.after [] = position := by
  simp [Position.after]

end StartEnd
