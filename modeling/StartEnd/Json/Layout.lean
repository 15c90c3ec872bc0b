import StartEnd.Json

/-!
# The written form of documents

A document is written with one member or item to a line and two spaces for each
level. Empty arrays and objects stay on one line. In strings only the quote, the
backslash and the controls below the space are escaped.
-/

namespace StartEnd.Json

/-- A character inside a written string. -/
def escaped (character : Char) : String :=
  match character with
  | '"' => "\\\""
  | '\\' => "\\\\"
  | '\x08' => "\\b"
  | '\x0c' => "\\f"
  | '\n' => "\\n"
  | '\r' => "\\r"
  | '\t' => "\\t"
  | _ =>
    if character.toNat < 0x10 then "\\u000" ++ Text.hexDigits character.toNat
    else if character.toNat < 0x20 then "\\u00" ++ Text.hexDigits character.toNat
    else character.toString

/-- A string in its written form. -/
def writtenString (value : String) : String :=
  "\"" ++ String.join (value.toList.map escaped) ++ "\""

/-- A number in its written form. -/
def writtenNumber (mantissa : Int) (exponent : Nat) : String :=
  if exponent = 0 then toString mantissa else toString mantissa ++ "e-" ++ toString exponent

/-- Indentation at a level. -/
def margin (level : Nat) : String := String.join (List.replicate level "  ")

mutual

/-- A document whose first line already stands at its place. -/
def written (level : Nat) : Json → String
  | null => "null"
  | bool value => if value then "true" else "false"
  | number mantissa exponent => writtenNumber mantissa exponent
  | string value => writtenString value
  | array [] => "[]"
  | array (first :: rest) =>
    "[\n" ++ margin (level + 1) ++ first.written (level + 1) ++
      writtenItems (level + 1) rest ++ "\n" ++ margin level ++ "]"
  | object [] => "\x7b\x7d"
  | object ((key, value) :: rest) =>
    "\x7b\n" ++ margin (level + 1) ++ writtenString key ++ ": " ++ value.written (level + 1) ++
      writtenMembers (level + 1) rest ++ "\n" ++ margin level ++ "\x7d"

/-- The further items of an array. -/
def writtenItems (level : Nat) : List Json → String
  | [] => ""
  | first :: rest =>
    ",\n" ++ margin level ++ first.written level ++ writtenItems level rest

/-- The further members of an object. -/
def writtenMembers (level : Nat) : List (String × Json) → String
  | [] => ""
  | (key, value) :: rest =>
    ",\n" ++ margin level ++ writtenString key ++ ": " ++ value.written level ++
      writtenMembers level rest

end

end StartEnd.Json
