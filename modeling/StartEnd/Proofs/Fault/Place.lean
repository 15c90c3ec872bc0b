import StartEnd.Proofs.Online.Source

/-!
# Faults are placed where the source shows them

A parse fails at one of the items that reading the source gives: at a token that does not
belong there or opens too many constructs, at the end of the input, or at a character that
begins no token. The position of the fault is the place where this item begins. It counts
the characters in front of it, and what it says about the text is found right behind it.
-/

namespace StartEnd

namespace Parse

/-- A fault has the position at which the item begins that it is met at. -/
theorem MetAt.position_eq {fault : Fault} {item : Item} (met : MetAt fault item) :
    fault.position = item.span.start := by
  cases item with
  | error found =>
    have same : fault = found := met
    rw [same]
    rfl
  | ok token =>
    cases met with
    | inl unexpected =>
      rw [unexpected]
      rfl
    | inr tooDeep =>
      rw [tooDeep]
      rfl

end Parse

/-- A parse of a source that fails does so at one of its items. -/
theorem Program.exists_item_of_fault {source : String} {fault : Fault}
    (failed : Program.parse source = .error fault) :
    ∃ item ∈ Source.items source, Parse.MetAt fault item := by
  obtain ⟨_, index, _, plain, ends⟩ := Parse.items_ends (Source.items source)
  have met : Parse.MetAt fault ((Parse.handed (Source.items source)).get index) := by
    have stopped : (Parse.items (Source.items source)).1 = .error fault := failed
    rw [stopped] at ends
    exact ends
  obtain ⟨tokens, last, shape, _, closes⟩ := (items_delivers source).shape
  have lastFound : (Source.items source)[tokens.length]? = some last := by simp [shape]
  -- Nothing is asked for behind the last item, because it is a fault or an ending.
  have bound : index ≤ tokens.length := plain.le fun token given => by
    rw [Parse.handed_get_of_lt lastFound] at given
    exact closes token given
  have inside : index < (Source.items source).length := by
    rw [shape, List.length_append, List.length_map]
    exact Nat.lt_succ_of_le bound
  rw [Parse.handed_get_of_lt (List.getElem?_eq_getElem inside)] at met
  exact ⟨_, List.getElem_mem inside, met⟩

/-- A token of a source that begins at a position, with its text right behind it. -/
structure Source.BeginsAt (source : String) (position : Position) (rest : List Char)
    (token : Token) : Prop where
  given : .ok token ∈ Source.items source
  visible : token.kind ≠ .endOfInput
  start : token.span.start = position
  text : token.value.toList <+: rest

/-- What a cause says about the text behind its position. -/
def Fault.Cause.Describes (source : String) (position : Position) (rest : List Char) :
    Fault.Cause → Prop
  | .unrecognisedCharacter character => rest.head? = some character
  | .unexpectedToken text _ =>
    ∃ token, Source.BeginsAt source position rest token ∧ token.value = text
  | .unexpectedEndOfInput _ => position.offset.toNat = source.utf8ByteSize
  | .nestingTooDeep _ =>
    position.offset.toNat = source.utf8ByteSize ∨
      ∃ token, Source.BeginsAt source position rest token

/-- A fault that is found at a token of a source describes the token. -/
theorem Source.BeginsAt.describes {source : String} {position : Position} {rest : List Char}
    {token : Token} (begins : Source.BeginsAt source position rest token) {fault : Fault}
    (placed : Parse.PlacedAt fault token) : fault.cause.Describes source position rest := by
  cases placed with
  | inl unexpected =>
    rw [unexpected, Fault.unexpected, if_neg begins.visible]
    exact ⟨token, begins, rfl⟩
  | inr tooDeep =>
    rw [tooDeep]
    exact .inr ⟨token, begins⟩

/-- A fault that is found at an ending describes the end of the source. -/
theorem Parse.PlacedAt.describes_end {source : String} {position : Position} {rest : List Char}
    {token : Token} {fault : Fault} (placed : Parse.PlacedAt fault token)
    (ends : token.kind = .endOfInput) (last : position.offset.toNat = source.utf8ByteSize) :
    fault.cause.Describes source position rest := by
  obtain ⟨expected, cause⟩ | cause := placed.cause ends
  · rw [cause]
    exact last
  · rw [cause]
    exact .inl last

/-- A source that is short enough for its positions and fails to be a program has its fault
at a place between two characters. The position counts exactly what stands in front, and
behind it stands what the fault is about: the unexpected token, the unrecognised character,
or nothing if the end of the input was unexpected. Too many constructs are found at a token
or at the end of the source. -/
theorem Program.fault_faithful (source : String) (fault : Fault)
    (short : source.utf8ByteSize < 2 ^ 32 - 1) (failed : Program.parse source = .error fault) :
    ∃ front rest, source.toList = front ++ rest ∧ fault.position.Exact front ∧
      fault.position.offset.toNat ≤ source.utf8ByteSize ∧
      fault.cause.Describes source fault.position rest := by
  have small : byteLength source.toList < 2 ^ 32 - 1 := byteLength_toList source ▸ short
  obtain ⟨item, given, met⟩ := exists_item_of_fault failed
  have position := met.position_eq
  -- Each kind of item stands behind a front of the source.
  obtain ⟨front, rest, split, start, describes⟩ : ∃ front rest, source.toList = front ++ rest ∧
      fault.position = .behind front ∧ fault.cause.Describes source fault.position rest := by
    cases (items_delivers source).placed item given with
    | ending =>
      have last : (Position.behind source.toList).offset.toNat = source.utf8ByteSize :=
        (Position.exact_behind small).offset.trans (byteLength_toList source)
      exact ⟨source.toList, [], by simp, position, met.describes_end rfl (position ▸ last)⟩
    | @fault front rest first split =>
      have same : fault = ⟨.unrecognisedCharacter first, .behind front⟩ := met
      have described : fault.cause.Describes source fault.position (first :: rest) := by
        rw [same]
        rfl
      exact ⟨front, first :: rest, split, position, described⟩
    | @token front rest token visible split start stop =>
      have begins : Source.BeginsAt source fault.position (token.value.toList ++ rest) token :=
        ⟨given, visible, position.symm, List.prefix_append _ _⟩
      rw [List.append_assoc] at split
      exact ⟨front, _, split, position.trans start, begins.describes met⟩
  have inside : front <+: source.toList := split ▸ List.prefix_append _ _
  have exact : fault.position.Exact front := start ▸ Position.exact_of_front inside small
  refine ⟨front, rest, split, exact, ?_, describes⟩
  rw [exact.offset, ← byteLength_toList]
  exact byteLength_le_of_front inside

/-- Behind a wide space in its second line, a source has a name where a condition should
open. -/
theorem Program.fault_faithful_wide :
    let source := "Start\n\u3000if x\nEnd"
    let fault : Fault := ⟨.unexpectedToken "x" [.openParen], ⟨12, 2, 5⟩⟩
    Program.parse source = .error fault ∧
    ∃ front rest, source.toList = front ++ rest ∧ fault.position.Exact front ∧
      fault.cause.Describes source fault.position rest := by
  intro source fault
  have failed : Program.parse source = .error fault := by decide +kernel
  obtain ⟨front, rest, split, exact, _, describes⟩ :=
    Program.fault_faithful source fault (by decide) failed
  exact ⟨failed, front, rest, split, exact, describes⟩

end StartEnd
