import Mathlib.Data.List.Nodup
import Mathlib.Data.Option.Basic
import StartEnd.Tree.Document

/-!
# Edited documents

A document may reach its reader in another form than it was written. Its records may have
got members that are no fields, and an `else_body` may be missing; both are harmless. Any
other field that is missing makes the record unreadable, and so does false in the place of
an array or an object. An object that names a variant is no record, so nothing is added to it
or removed from it.

An edit relates three documents: the one that was written, the one that is meant by what is
left of it, and the one that is read. If nothing else is lost, the written and the meant one
differ only in those `else_body` fields that are missing from the one that is read, and that
are null in the one that is meant. An edit also counts what is lost: the fields that are
missing otherwise, and the arrays and objects in whose place false stands.
-/

namespace StartEnd

namespace Json

/-- The names of the variants with content. -/
def variants : List String :=
  ["Assign", "Declaration", "If", "Repeat", "FnDecl", "FnCall", "Increment", "Decrement",
    "Binary", "Symbol", "Number", "UnrecognisedCharacter", "UnexpectedToken",
    "UnexpectedEndOfInput", "NestingTooDeep"]

/-- The members of an object that names a variant. -/
def NamesVariant : List (String × Json) → Prop
  | [(tag, _)] => tag ∈ variants
  | _ => False

/-- Items that are edited one by one. -/
inductive EditItems (edit : Nat → Json → Json → Json → Prop) :
    Nat → List Json → List Json → List Json → Prop
  | nil : EditItems edit 0 [] [] []
  | cons {removed others : Nat} {item meant revised : Json}
      {items meantItems revisedItems : List Json} (first : edit removed item meant revised)
      (rest : EditItems edit others items meantItems revisedItems) :
      EditItems edit (removed + others) (item :: items) (meant :: meantItems)
        (revised :: revisedItems)

/-- Members of a record with the given keys, of which some are edited, some are removed and
some are new. -/
inductive EditMembers (edit : Nat → Json → Json → Json → Prop) : List String →
    Nat → List (String × Json) → List (String × Json) → List (String × Json) → Prop
  | nil (keys : List String) : EditMembers edit keys 0 [] [] []
  | keep (key : String) {keys : List String} {removed others : Nat} {value meant revised : Json}
      {rest meantRest revisedRest : List (String × Json)} (here : edit removed value meant revised)
      (further : EditMembers edit keys others rest meantRest revisedRest) :
      EditMembers edit keys (removed + others) ((key, value) :: rest) ((key, meant) :: meantRest)
        ((key, revised) :: revisedRest)
  | add (key : String) (value : Json) {keys : List String} (unknown : key ∉ keys) {removed : Nat}
      {members meant revised : List (String × Json)}
      (further : EditMembers edit keys removed members meant revised) :
      EditMembers edit keys removed members meant ((key, value) :: revised)
  | remove (key : String) (value : Json) (needed : key ≠ "else_body") {keys : List String}
      {removed : Nat} {rest meantRest revisedRest : List (String × Json)}
      (further : EditMembers edit keys removed rest meantRest revisedRest) :
      EditMembers edit keys (1 + removed) ((key, value) :: rest) ((key, value) :: meantRest)
        revisedRest
  | removeElse (value : Json) {keys : List String} {removed : Nat}
      {rest meantRest revisedRest : List (String × Json)}
      (further : EditMembers edit keys removed rest meantRest revisedRest) :
      EditMembers edit keys removed (("else_body", value) :: rest)
        (("else_body", null) :: meantRest) revisedRest

/-- A document that is neither an array nor an object. -/
def IsScalar : Json → Prop
  | .array _ | .object _ => False
  | _ => True

/-- A document is written, another one is meant, and a third one is read. The number is that of
the fields that are missing, not counting `else_body`, and of the arrays and objects that are
spoiled. -/
inductive Edit : Nat → Json → Json → Json → Prop
  | same (document : Json) : Edit 0 document document document
  | array {removed : Nat} {items meant revised : List Json}
      (inside : EditItems Edit removed items meant revised) :
      Edit removed (.array items) (.array meant) (.array revised)
  | variant {tag : String} (named : tag ∈ variants) {removed : Nat} {content meant revised : Json}
      (inside : Edit removed content meant revised) :
      Edit removed (tagged tag content) (tagged tag meant) (tagged tag revised)
  | record {removed : Nat} {members meant revised : List (String × Json)}
      (isRecord : ¬ NamesVariant members)
      (inside : EditMembers Edit (members.map Prod.fst) removed members meant revised) :
      Edit removed (.object members) (.object meant) (.object revised)
  | spoil {document : Json} (meant : Json) (nested : ¬ document.IsScalar) :
      Edit 1 document meant (.bool false)

/-- Items stay as they are. -/
theorem EditItems.refl (items : List Json) : EditItems Edit 0 items items items := by
  induction items with
  | nil => exact .nil
  | cons first rest inductionHypothesis => exact .cons (.same first) inductionHypothesis

/-- Members stay as they are. -/
theorem EditMembers.refl (keys : List String) (members : List (String × Json)) :
    EditMembers Edit keys 0 members members members := by
  induction members with
  | nil => exact .nil keys
  | cons first rest inductionHypothesis => exact .keep first.1 (.same first.2) inductionHypothesis

/-- Edits of an array are edits of its items, or it is spoiled. -/
theorem Edit.of_array {removed : Nat} {items : List Json} {meant revised : Json}
    (edit : Edit removed (.array items) meant revised) :
    (∃ meantItems revisedItems, meant = .array meantItems ∧ revised = .array revisedItems ∧
      EditItems Edit removed items meantItems revisedItems) ∨
    removed = 1 ∧ revised = .bool false := by
  cases edit with
  | same => exact .inl ⟨items, items, rfl, rfl, .refl items⟩
  | array inside => exact .inl ⟨_, _, rfl, rfl, inside⟩
  | spoil => exact .inr ⟨rfl, rfl⟩

/-- Edits of a variant are edits of its content, or it is spoiled. -/
theorem Edit.of_tagged {removed : Nat} {tag : String} {content meant revised : Json}
    (named : tag ∈ variants) (edit : Edit removed (tagged tag content) meant revised) :
    (∃ meantContent revisedContent, meant = tagged tag meantContent ∧
      revised = tagged tag revisedContent ∧ Edit removed content meantContent revisedContent) ∨
    removed = 1 ∧ revised = .bool false := by
  unfold tagged at edit
  cases edit with
  | same => exact .inl ⟨content, content, rfl, rfl, .same content⟩
  | variant _ inside => exact .inl ⟨_, _, rfl, rfl, inside⟩
  | record isRecord inside => exact absurd named isRecord
  | spoil => exact .inr ⟨rfl, rfl⟩

/-- An edited document is null exactly when it was written so. -/
theorem Edit.isNull_eq {removed : Nat} {document meant revised : Json}
    (edit : Edit removed document meant revised) : revised.isNull = document.isNull := by
  cases edit with
  | same | array | variant | record => rfl
  | spoil meant nested =>
    cases document with
    | null => exact absurd trivial nested
    | bool | number | string | array | object => rfl

/-- A document that is neither an array nor an object stays as it is. -/
theorem Edit.of_scalar {removed : Nat} {document meant revised : Json}
    (edit : Edit removed document meant revised) (scalar : document.IsScalar) :
    removed = 0 ∧ meant = document ∧ revised = document := by
  cases edit with
  | same => exact ⟨rfl, rfl, rfl⟩
  | array inside => exact scalar.elim
  | variant named inside => exact scalar.elim
  | record isRecord inside => exact scalar.elim
  | spoil meant nested => exact absurd scalar nested

/-- The value of the first member with a key. -/
def lookup? (key : String) (members : List (String × Json)) : Option Json :=
  (member? key members).map (·.1)

@[simp] theorem lookup?_cons (key name : String) (value : Json) (rest : List (String × Json)) :
    lookup? key ((name, value) :: rest) = if name = key then some value else lookup? key rest := by
  by_cases isKey : name = key
  · simp [lookup?, member?, isKey]
  · simp [lookup?, member?, isKey, Function.comp_def]

/-- The field of an object is the value of its first member with that key. -/
theorem map_field?_object (members : List (String × Json)) (key : String) :
    ((Json.object members).field? key).map (·.1) = lookup? key members := by
  simp [field?, lookup?, Function.comp_def]

/-- A part of a record that is an object is the value of its first member with that key. -/
theorem map_part?_object (members : List (String × Json)) (fields : List String) (key : String) :
    ((Json.object members).part? fields key).map (·.1) = lookup? key members :=
  map_field?_object members key

/-- No record has a part in the place where false stands. -/
@[simp] theorem part?_bool (value : Bool) (fields : List String) (key : String) :
    (Json.bool value).part? fields key = none := rfl

/-- No field is read in the place where false stands. -/
@[simp] theorem readPart_bool {α : Type} (value : Bool) (fields : List String) (key : String)
    (read : Json → Option α) : (Json.bool value).readPart fields key read = none := rfl

/-- A field of a record that is an object is read from its first member with that key. -/
theorem readPart_object {α : Type} (members : List (String × Json)) (fields : List String)
    (key : String) (read : Json → Option α) :
    (Json.object members).readPart fields key read = (lookup? key members).bind read := by
  rw [← map_field?_object, Option.bind_map]
  rfl

/-- What has become of a field: it is still there, or it is missing. -/
inductive Found (key : String) (value : Json) : Nat → Json → Option Json → Prop
  | kept {removed : Nat} {meant revised : Json} (edit : Edit removed value meant revised) :
      Found key value removed meant (some revised)
  | missing (needed : key ≠ "else_body") : Found key value 1 value none
  | missingElse (isElse : key = "else_body") : Found key value 0 null none

/-- What has become of each of the fields in some members. -/
def FieldsFound (revised : List (String × Json)) :
    List (String × Json) → Nat → List (String × Json) → Prop
  | [], removed, meant => removed = 0 ∧ meant = []
  | (key, value) :: rest, removed, meant =>
    ∃ lost others here further, removed = lost + others ∧ meant = (key, here) :: further ∧
      Found key value lost here (lookup? key revised) ∧
      FieldsFound revised rest others further

/-- Members matter by what is found in them. -/
theorem FieldsFound.congr {revised other members meant : List (String × Json)} {removed : Nat}
    (found : FieldsFound revised members removed meant)
    (same : ∀ key ∈ members.map Prod.fst, lookup? key revised = lookup? key other) :
    FieldsFound other members removed meant := by
  induction members generalizing removed meant with
  | nil => exact found
  | cons first rest inductionHypothesis =>
    obtain ⟨lost, others, here, further, sum, split, isFound, restFound⟩ := found
    rw [List.map_cons, List.forall_mem_cons] at same
    rw [same.1] at isFound
    exact ⟨lost, others, here, further, sum, split, isFound,
      inductionHypothesis restFound same.2⟩

/-- A key of the record that is not among the members is not found behind them. -/
theorem EditMembers.lookup?_eq_none {keys : List String} {removed : Nat}
    {members meant revised : List (String × Json)}
    (edit : EditMembers Edit keys removed members meant revised) {key : String}
    (known : key ∈ keys) (absent : key ∉ members.map Prod.fst) : lookup? key revised = none := by
  induction edit with
  | nil keys => rfl
  | keep name here further inductionHypothesis =>
    rw [List.map_cons, List.mem_cons, not_or] at absent
    rw [lookup?_cons, if_neg (Ne.symm absent.1), inductionHypothesis known absent.2]
  | add name value unknown further inductionHypothesis =>
    have other : name ≠ key := by
      rintro rfl
      exact unknown known
    rw [lookup?_cons, if_neg other, inductionHypothesis known absent]
  | remove name value needed further inductionHypothesis =>
    rw [List.map_cons, List.mem_cons, not_or] at absent
    exact inductionHypothesis known absent.2
  | removeElse value further inductionHypothesis =>
    rw [List.map_cons, List.mem_cons, not_or] at absent
    exact inductionHypothesis known absent.2

/-- Every member of a record with different keys is found, or it is missing. -/
theorem EditMembers.fieldsFound {keys : List String} {removed : Nat}
    {members meant revised : List (String × Json)}
    (edit : EditMembers Edit keys removed members meant revised)
    (known : ∀ key ∈ members.map Prod.fst, key ∈ keys)
    (distinct : (members.map Prod.fst).Nodup) : FieldsFound revised members removed meant := by
  induction edit with
  | nil keys => exact ⟨rfl, rfl⟩
  | keep name here further inductionHypothesis =>
    rw [List.map_cons, List.nodup_cons] at distinct
    rw [List.map_cons, List.forall_mem_cons] at known
    refine ⟨_, _, _, _, rfl, rfl, ?_, ?_⟩
    · rw [lookup?_cons, if_pos rfl]
      exact .kept here
    · apply (inductionHypothesis known.2 distinct.2).congr
      intro key inside
      have other : name ≠ key := by
        rintro rfl
        exact distinct.1 inside
      rw [lookup?_cons, if_neg other]
  | add name value unknown further inductionHypothesis =>
    apply (inductionHypothesis known distinct).congr
    intro key inside
    have other : name ≠ key := by
      rintro rfl
      exact unknown (known name inside)
    rw [lookup?_cons, if_neg other]
  | remove name value needed further inductionHypothesis =>
    rw [List.map_cons, List.nodup_cons] at distinct
    rw [List.map_cons, List.forall_mem_cons] at known
    refine ⟨_, _, _, _, rfl, rfl, ?_, inductionHypothesis known.2 distinct.2⟩
    -- No member further behind has this key: fields differ, and what is added is no field.
    rw [further.lookup?_eq_none known.1 distinct.1]
    exact .missing needed
  | removeElse value further inductionHypothesis =>
    rw [List.map_cons, List.nodup_cons] at distinct
    rw [List.map_cons, List.forall_mem_cons] at known
    refine ⟨0, _, _, _, (Nat.zero_add _).symm, rfl, ?_, inductionHypothesis known.2 distinct.2⟩
    rw [further.lookup?_eq_none known.1 distinct.1]
    exact .missingElse rfl

/-- Edits of a record with different keys are what becomes of its fields, or it is spoiled. -/
theorem Edit.of_record {removed : Nat} {members : List (String × Json)} {meant revised : Json}
    (isRecord : ¬ NamesVariant members) (distinct : (members.map Prod.fst).Nodup)
    (edit : Edit removed (.object members) meant revised) :
    (∃ meantMembers revisedMembers, meant = .object meantMembers ∧
      revised = .object revisedMembers ∧
      FieldsFound revisedMembers members removed meantMembers) ∨
    removed = 1 ∧ revised = .bool false := by
  cases edit with
  | same =>
    exact .inl ⟨members, members, rfl, rfl,
      (EditMembers.refl _ members).fieldsFound (fun _ inside => inside) distinct⟩
  | variant named inside => exact absurd named isRecord
  | record _ inside =>
    exact .inl ⟨_, _, rfl, rfl, inside.fieldsFound (fun _ known => known) distinct⟩
  | spoil => exact .inr ⟨rfl, rfl⟩

end Json

end StartEnd
