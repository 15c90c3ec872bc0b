import StartEnd.Fault
import StartEnd.Json

/-!
# Tokens and faults as documents

Positions, tokens and faults are stored the way trees are: a record is an object
with one member for each field, and a cause is an object named for the cause.
Positions, spans and faults may also be given as arrays of their fields. A token may
be stored without its span, which then is the empty span at the start, so the
fields of a token are always named, and so is what a cause carries.
-/

namespace StartEnd

/-- The fields of a position. -/
def Position.fields : List String := ["offset", "line", "column"]

/-- The document of a position. -/
def Position.toJson (position : Position) : Json :=
  .object
    [("offset", .natural position.offset.toNat), ("line", .natural position.line.toNat),
      ("column", .natural position.column.toNat)]

/-- Reads a position. -/
def Position.ofJson? (document : Json) : Option Position := do
  return {
    offset := ← (← document.part? fields "offset").1.word32?
    line := ← (← document.part? fields "line").1.word32?
    column := ← (← document.part? fields "column").1.word32? }

/-- The fields of a span. -/
def Span.fields : List String := ["start", "end"]

/-- The document of a span. -/
def Span.toJson (span : Span) : Json :=
  .object [("start", span.start.toJson), ("end", span.stop.toJson)]

/-- Reads a span. -/
def Span.ofJson? (document : Json) : Option Span := do
  return {
    start := ← Position.ofJson? (← document.part? fields "start").1
    stop := ← Position.ofJson? (← document.part? fields "end").1 }

/-- The document of a kind. -/
def Token.Kind.toJson (kind : Token.Kind) : Json := .string kind.name

/-- Reads a kind. -/
def Token.Kind.ofJson? (document : Json) : Option Token.Kind := do
  Token.Kind.ofName? (← document.plainVariant?)

/-- The document of a list of kinds. -/
def kindsToJson (kinds : List Token.Kind) : Json := .array (kinds.map Token.Kind.toJson)

/-- Reads a list of kinds. -/
def kindsOfJson? (document : Json) : Option (List Token.Kind) := do
  (← document.items?).1.mapM Token.Kind.ofJson?

/-- The document of a token. -/
def Token.toJson (token : Token) : Json :=
  .object
    [("kind", token.kind.toJson), ("value", .string token.value), ("span", token.span.toJson)]

/-- Reads a token. -/
def Token.ofJson? (document : Json) : Option Token := do
  return {
    kind := ← Token.Kind.ofJson? (← document.field? "kind").1
    value := ← (← document.field? "value").1.text?
    span := ←
      match document.field? "span" with
      | none => some {}
      | some stored => Span.ofJson? stored.1 }

/-- The document of a cause. -/
def Fault.Cause.toJson (cause : Fault.Cause) : Json :=
  .object [(cause.name,
    match cause with
    | .unrecognisedCharacter character => .object [("character", .string character.toString)]
    | .unexpectedToken token expected =>
      .object [("token", .string token), ("expected", kindsToJson expected)]
    | .unexpectedEndOfInput expected => .object [("expected", kindsToJson expected)]
    | .nestingTooDeep limit => .object [("limit", .natural limit.toNat)])]

/-- Reads a cause. -/
def Fault.Cause.ofJson? : Json → Option Fault.Cause
  | .object [(tag, content)] =>
    if tag = "UnrecognisedCharacter" then do
      return .unrecognisedCharacter (← (← content.field? "character").1.character?)
    else if tag = "UnexpectedToken" then do
      let token ← (← content.field? "token").1.text?
      return .unexpectedToken token (← kindsOfJson? (← content.field? "expected").1)
    else if tag = "UnexpectedEndOfInput" then do
      return .unexpectedEndOfInput (← kindsOfJson? (← content.field? "expected").1)
    else if tag = "NestingTooDeep" then do
      return .nestingTooDeep (← (← content.field? "limit").1.word64?)
    else none
  | _ => none

/-- The fields of a fault. -/
def Fault.fields : List String := ["internal_error", "position"]

/-- The document of a fault. -/
def Fault.toJson (fault : Fault) : Json :=
  .object [("internal_error", fault.cause.toJson), ("position", fault.position.toJson)]

/-- Reads a fault from its record, of which everything is entered. -/
def Fault.ofRecord? (document : Json) : Option Fault := do
  return {
    cause := ← Fault.Cause.ofJson? (← document.part? fields "internal_error").1
    position := ← Position.ofJson? (← document.part? fields "position").1 }

/-- Reads a stored fault. -/
def Fault.ofJson? (document : Json) : Option Fault :=
  ofRecord? (document.entered Json.nestingLimit)

end StartEnd
