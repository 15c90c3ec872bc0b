import StartEnd.Fault
import StartEnd.Token.Pattern

/-!
# Reading tokens from a source

A cursor walks over a source text and hands out one item at a time: tokens, then a
single end-of-input token, or a fault at the first character outside the language.
After either of these the cursor is finished and hands out nothing more.

A cursor can also be moved by a text that is not in the source, which may leave it
inside a character or behind the end. There is no text to read at such a place; the
bytes by which the cursor stands behind the last boundary are its overrun.
-/

namespace StartEnd

/-- What a token source delivers: a token or a fault. -/
abbrev Item := Except Fault Token

/-- A place in a source and what is left to read there. -/
structure Cursor where
  /-- The text from the last character boundary on. -/
  rest : List Char
  /-- Bytes between that boundary and the cursor. -/
  overrun : Nat := 0
  /-- Bytes between the start of the source and the cursor. -/
  offset : Nat := 0
  line : UInt32 := 1
  column : UInt32 := 1
  /-- Whether the last item has been handed out. -/
  finished : Bool := false
deriving DecidableEq

/-- The cursor stands inside a character or behind the end of the source. -/
inductive OffBoundary where
  | offBoundary
deriving DecidableEq

/-- Drops the characters whose bytes a count covers; the second part is what is left
of the count. -/
def dropBytes : List Char → Nat → List Char × Nat
  | [], bytes => ([], bytes)
  | first :: rest, bytes =>
    if bytes < first.utf8Size then (first :: rest, bytes)
    else dropBytes rest (bytes - first.utf8Size)

/-- Dropping the bytes of a text from its own front leaves what follows it. -/
theorem dropBytes_append (front rest : List Char) :
    dropBytes (front ++ rest) (byteLength front) = (rest, 0) := by
  induction front with
  | nil =>
    cases rest with
    | nil => rfl
    | cons first rest => simp [dropBytes, Char.utf8Size_pos]
  | cons first front inductionHypothesis =>
    have covered : ¬ first.utf8Size + byteLength front < first.utf8Size := by omega
    simpa [dropBytes, covered] using inductionHypothesis

namespace Cursor

/-- The cursor at the start of a source. -/
def start (source : String) : Cursor := { rest := source.toList }

/-- Where the cursor stands. -/
def position (cursor : Cursor) : Position :=
  { offset := cursor.offset.toUInt32, line := cursor.line, column := cursor.column }

/-- The span that a text would take from here. -/
def spanOf (cursor : Cursor) (text : List Char) : Span :=
  { start := cursor.position, stop := cursor.position.after text }

/-- Moves the cursor over a text, whether or not the source continues with it. -/
def advance (cursor : Cursor) (text : List Char) : Cursor :=
  let reached := cursor.position.after text
  let (rest, overrun) := dropBytes cursor.rest (cursor.overrun + byteLength text)
  { cursor with
    rest := rest
    overrun := overrun
    offset := cursor.offset + byteLength text
    line := reached.line
    column := reached.column }

/-- Whether the cursor is at or behind the end of the source. -/
def atEnd (cursor : Cursor) : Bool := cursor.rest.isEmpty

/-- The text that is left to read. -/
def remainder (cursor : Cursor) : Except OffBoundary (List Char) :=
  if cursor.overrun = 0 then .ok cursor.rest else .error .offBoundary

/-- The character that is read next, if there is one. -/
def upcoming (cursor : Cursor) : Except OffBoundary (Option Char) :=
  cursor.remainder.map List.head?

/-- What one look at the text shows: an item and the cursor behind it, white space and
the cursor behind that, or nothing. -/
inductive Look where
  | item (item : Item) (following : Cursor)
  | blank (following : Cursor)
  | nothing

/-- Looks at the text once. -/
def look (table : List Pattern) (cursor : Cursor) : Except OffBoundary Look :=
  if cursor.finished then .ok .nothing
  else
    match cursor.rest with
    | [] => .ok (.item (.ok (Token.ending cursor.position)) { cursor with finished := true })
    | first :: _ =>
      if cursor.overrun ≠ 0 then .error .offBoundary
      else
        match Pattern.longest? table cursor.rest with
        | none =>
          let fault : Fault := ⟨.unrecognisedCharacter first, cursor.position⟩
          .ok (.item (.error fault) { cursor with finished := true })
        | some (pattern, taken) =>
          match pattern.kind? taken with
          | none => .ok (.blank (cursor.advance taken))
          | some kind =>
            let token : Token := ⟨kind, String.ofList taken, cursor.spanOf taken⟩
            .ok (.item (.ok token) (cursor.advance taken))

/-- The next item and the cursor behind it; no item once the cursor is finished. White
space is taken whole, so that behind it there is no more of it. -/
def nextBy (table : List Pattern) (cursor : Cursor) :
    Except OffBoundary (Option Item × Cursor) := do
  match ← cursor.look table with
  | .item item following => return (some item, following)
  | .nothing => return (none, cursor)
  | .blank following =>
    match ← following.look table with
    | .item item last => return (some item, last)
    | .nothing | .blank _ => return (none, following)

/-- Reads at most the given number of items; the cursor ends behind the last one. -/
def drainWithin (table : List Pattern) : Nat → Cursor → List Item × Cursor
  | 0, cursor => ([], cursor)
  | count + 1, cursor =>
    match cursor.nextBy table with
    | .ok (some item, following) =>
      let (items, last) := drainWithin table count following
      (item :: items, last)
    | .ok (none, following) => ([], following)
    | .error _ => ([], cursor)

/-- Reads all items that are left. Each of them but the last takes some text, which
bounds their number. -/
def drainBy (table : List Pattern) (cursor : Cursor) : List Item × Cursor :=
  drainWithin table (cursor.rest.length + 1) cursor

/-- The next item under the patterns of the language. -/
def next (cursor : Cursor) : Except OffBoundary (Option Item × Cursor) :=
  cursor.nextBy Pattern.all

/-- All items that are left under the patterns of the language. -/
def drain (cursor : Cursor) : List Item × Cursor := cursor.drainBy Pattern.all

end Cursor

/-- Everything that reading a source delivers, in order. -/
def Source.items (source : String) : List Item := (Cursor.start source).drain.1

/-- The tokens of a source, or the first fault. -/
def Source.tokens (source : String) : Except Fault (List Token) :=
  (Source.items source).mapM id

end StartEnd
