import StartEnd.Text.Quoted

/-!
# JSON documents

Trees and faults are stored as JSON. A document keeps the members of its objects in
order, so that it is written the way it was built, and a member is found by its
first occurrence. Numbers are decimal fractions, of which only the whole ones carry
data here.

A record is an object with one member for each field. It may also be given as an
array, whose items then are the fields in their order, none left out. A variant
without content is its name, or an object with that name as its only member and
null as content.

A stored document is read only so deep: at most 127 arrays and objects are entered
inside one another. What is nested deeper is not read, and that does no harm in a
member that is not read anyway.
-/

namespace StartEnd

/-- A JSON document. -/
inductive Json where
  | null
  | bool (value : Bool)
  /-- The mantissa divided by ten to the power of the exponent. -/
  | number (mantissa : Int) (exponent : Nat)
  | string (value : String)
  | array (items : List Json)
  | object (members : List (String × Json))
deriving Inhabited

namespace Json

/-- A whole number. -/
def natural (value : Nat) : Json := number value 0

/-- The first member with a key. The value found is smaller than the members, which
is what lets readers of documents recurse into it. -/
def member? (key : String) :
    (members : List (String × Json)) → Option { value : Json // sizeOf value < sizeOf members }
  | [] => none
  | (name, value) :: rest =>
    if name = key then
      some ⟨value, by simp only [List.cons.sizeOf_spec, Prod.mk.sizeOf_spec]; omega⟩
    else
      (member? key rest).map fun found =>
        ⟨found.1, by have := found.2; simp only [List.cons.sizeOf_spec]; omega⟩

/-- The value of a field of an object. -/
def field? (document : Json) (key : String) :
    Option { value : Json // sizeOf value < sizeOf document } :=
  match document with
  | object members =>
    (member? key members).map fun found =>
      ⟨found.1, by have := found.2; simp only [object.sizeOf_spec]; omega⟩
  | _ => none

/-- The item in the place of a field, of items given in the order of the fields. -/
def placed? (key : String) : (fields : List String) → (items : List Json) →
    Option { value : Json // sizeOf value < sizeOf items }
  | name :: fields, item :: items =>
    if name = key then some ⟨item, by simp only [List.cons.sizeOf_spec]; omega⟩
    else
      (placed? key fields items).map fun found =>
        ⟨found.1, by have := found.2; simp only [List.cons.sizeOf_spec]; omega⟩
  | _, _ => none

/-- The value of a field of a record that has the given fields. An array holds the
record only if it has exactly one item for each field. -/
def part? (document : Json) (fields : List String) (key : String) :
    Option { value : Json // sizeOf value < sizeOf document } :=
  match document with
  | array items =>
    if items.length = fields.length then
      (placed? key fields items).map fun found =>
        ⟨found.1, by have := found.2; simp only [array.sizeOf_spec]; omega⟩
    else none
  | other => other.field? key

/-- The text of a string. -/
def text? : Json → Option String
  | string value => some value
  | _ => none

/-- The name of a variant without content. -/
def plainVariant? : Json → Option String
  | string name => some name
  | object [(name, null)] => some name
  | _ => none

/-- The value of a whole, nonnegative number. -/
def natural? : Json → Option Nat
  | number (.ofNat value) 0 => some value
  | _ => none

/-- The items of an array, which are smaller than the array. -/
def items? (document : Json) : Option { items : List Json // sizeOf items < sizeOf document } :=
  match document with
  | array items => some ⟨items, by simp only [array.sizeOf_spec]; omega⟩
  | _ => none

/-- Whether a document is the null document. -/
def isNull : Json → Bool
  | null => true
  | _ => false

/-- A whole number of 32 bits. -/
def word32? (document : Json) : Option UInt32 := do
  let value ← document.natural?
  if value < UInt32.size then some value.toUInt32 else none

/-- A whole number of 64 bits. -/
def word64? (document : Json) : Option UInt64 := do
  let value ← document.natural?
  if value < UInt64.size then some value.toUInt64 else none

/-- How many arrays and objects are entered inside one another. -/
def nestingLimit : Nat := 127

/-- Whether at most so many arrays and objects stand inside one another. -/
def nestsWithin : Nat → Json → Bool
  | levels + 1, array items => items.all (nestsWithin levels)
  | levels + 1, object members => members.all fun member => nestsWithin levels member.2
  | 0, array _ | 0, object _ => false
  | _, null | _, bool _ | _, number _ _ | _, string _ => true

/-- What is found of a document if at most so many arrays and objects are entered inside
one another. A deeper one is found as false, which is neither a record nor a list, nor a
variant, nor the null of an absent part. -/
def entered : Nat → Json → Json
  | levels + 1, array items => array (items.map (entered levels))
  | levels + 1, object members =>
    object (members.map fun member => (member.1, entered levels member.2))
  | 0, array _ | 0, object _ => bool false
  | _, null => null
  | _, bool value => bool value
  | _, number mantissa exponent => number mantissa exponent
  | _, string value => string value

/-- A string of exactly one character. -/
def character? (document : Json) : Option Char := do
  match (← document.text?).toList with
  | [character] => some character
  | _ => none

end Json

end StartEnd
