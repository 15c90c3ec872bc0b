import Mathlib.Algebra.Group.Nat.Defs
import Mathlib.Data.List.DropRight
import StartEnd.Position

/-!
# Positions are exact

A position is moved piece by piece, in 32-bit words, and never computed from the text
before it. Moving over two pieces is moving over both at once, so the position behind the
first characters of a source does not depend on the pieces in which they were read. As long
as these characters take fewer than 2^32 - 1 bytes no word wraps around: the offset counts
their bytes, the line their line feeds, and the column the characters behind the last of
these.
-/

namespace StartEnd

/-- The front of a text has no more bytes than the text. -/
theorem byteLength_le_of_front {front text : List Char} (inside : front <+: text) :
    byteLength front ≤ byteLength text := by
  obtain ⟨rest, rfl⟩ := inside
  rw [byteLength_append]
  exact Nat.le_add_right _ _

/-- Bytes are counted as the source stores them. -/
theorem byteLength_toList (source : String) : byteLength source.toList = source.utf8ByteSize := by
  have encoded (text : List Char) : text.utf8Encode.size = byteLength text := by
    induction text with
    | nil => rfl
    | cons character text inductionHypothesis =>
      rw [List.utf8Encode_cons, ByteArray.size_append, inductionHypothesis,
        List.utf8Encode_singleton, List.size_toByteArray, String.length_utf8EncodeChar,
        byteLength_cons]
  rw [← encoded, ← String.toByteArray_ofList, String.ofList_toList, String.size_toByteArray]

namespace Position

/-- The position behind the first characters of a source. -/
def behind (front : List Char) : Position := Position.after {} front

/-- A position counts the characters before it. -/
structure Exact (position : Position) (front : List Char) : Prop where
  offset : position.offset.toNat = byteLength front
  line : position.line.toNat = 1 + front.count '\n'
  column : position.column.toNat = 1 + (front.rtakeWhile (· ≠ '\n')).length

/-- Lines and columns do not depend on the offset. -/
theorem foldl_step_offset (position : Position) (offset : UInt32) (text : List Char) :
    text.foldl step { position with offset := offset } =
      { text.foldl step position with offset := offset } := by
  induction text generalizing position with
  | nil => rfl
  | cons character text inductionHypothesis =>
    have moved : step { position with offset := offset } character =
        { step position character with offset := offset } := by
      unfold step
      split <;> rfl
    rw [List.foldl_cons, moved, inductionHypothesis, List.foldl_cons]

/-- Moving over two texts is moving over both at once. -/
theorem after_append (position : Position) (left right : List Char) :
    position.after (left ++ right) = (position.after left).after right := by
  have bytes : position.offset + (byteLength (left ++ right)).toUInt32 =
      position.offset + (byteLength left).toUInt32 + (byteLength right).toUInt32 := by
    rw [byteLength_append, UInt32.add_assoc]
    exact congrArg (position.offset + ·) (UInt32.ofNat_add _ _)
  simp only [after, foldl_step_offset, List.foldl_append, bytes]

/-- Moving on from behind a text. -/
theorem after_behind (front text : List Char) :
    (behind front).after text = behind (front ++ text) :=
  (after_append {} front text).symm

/-- A text has no more characters than bytes. -/
theorem length_le_byteLength (text : List Char) : text.length ≤ byteLength text := by
  induction text with
  | nil => exact Nat.le_refl _
  | cons character text inductionHypothesis =>
    have positive : 0 < character.utf8Size := character.utf8Size_pos
    rw [List.length_cons, byteLength_cons]
    omega

/-- A position that is exact stays so over one more character, if no word wraps around. -/
theorem Exact.step {position : Position} {front : List Char} (exact : position.Exact front)
    {character : Char} (short : byteLength (front ++ [character]) < 2 ^ 32 - 1) :
    (position.after [character]).Exact (front ++ [character]) := by
  have bytes : byteLength (front ++ [character]) = byteLength front + character.utf8Size := by
    simp
  have positive : 0 < character.utf8Size := character.utf8Size_pos
  have counted : front.count '\n' ≤ byteLength front :=
    Nat.le_trans List.count_le_length (length_le_byteLength front)
  have since : (front.rtakeWhile (· ≠ '\n')).length ≤ byteLength front :=
    Nat.le_trans (List.rtakeWhile_suffix _ front).length_le (length_le_byteLength front)
  have offset : (position.after [character]).offset.toNat =
      byteLength (front ++ [character]) := by
    have single : byteLength [character] = character.utf8Size := rfl
    have small : character.utf8Size.toUInt32.toNat = character.utf8Size :=
      UInt32.toNat_ofNat_of_lt' (show character.utf8Size < 2 ^ 32 by omega)
    simp only [after, single, UInt32.toNat_add, small, exact.offset]
    omega
  by_cases feed : character = '\n'
  · subst feed
    refine ⟨offset, ?_, ?_⟩
    · have line : (position.after ['\n']).line = position.line + 1 := rfl
      rw [line, UInt32.toNat_add, exact.line, List.count_append, List.count_singleton_self]
      simp only [UInt32.toNat_one]
      omega
    · have column : (position.after ['\n']).column = 1 := rfl
      rw [column, List.rtakeWhile_concat_neg _ _ _ (by simp)]
      rfl
  · have moved : Position.step position character =
        { position with column := position.column + 1 } := if_neg feed
    refine ⟨offset, ?_, ?_⟩
    · have line : (position.after [character]).line = position.line := by
        simp [after, moved]
      rw [line, exact.line, List.count_append, List.count_singleton]
      simp [feed]
    · have column : (position.after [character]).column = position.column + 1 := by
        simp [after, moved]
      rw [column, UInt32.toNat_add, exact.column,
        List.rtakeWhile_concat_pos _ _ _ (by simpa using feed), List.length_append]
      simp only [UInt32.toNat_one, List.length_singleton]
      omega

/-- The position behind the first characters of a source is exact as long as these take
fewer than 2^32 - 1 bytes. The induction is over the characters from the last one on. -/
theorem exact_behind {front : List Char} (short : byteLength front < 2 ^ 32 - 1) :
    (behind front).Exact front := by
  induction front using List.reverseRecOn with
  | nil => exact ⟨rfl, rfl, rfl⟩
  | append_singleton front character inductionHypothesis =>
    have shorter : byteLength front < 2 ^ 32 - 1 := by
      rw [byteLength_append] at short
      omega
    rw [← after_behind]
    exact (inductionHypothesis shorter).step short

/-- In a text that is short enough all positions are exact. -/
theorem exact_of_front {front text : List Char} (inside : front <+: text)
    (short : byteLength text < 2 ^ 32 - 1) : (behind front).Exact front :=
  exact_behind (Nat.lt_of_le_of_lt (byteLength_le_of_front inside) short)

/-- Behind more characters the offset is no smaller. -/
theorem offset_behind_le {left right : List Char} (inside : left <+: right)
    (short : byteLength right < 2 ^ 32 - 1) : (behind left).offset ≤ (behind right).offset := by
  rw [UInt32.le_iff_toNat_le, (exact_behind short).offset,
    (exact_of_front inside short).offset]
  exact byteLength_le_of_front inside

end Position

end StartEnd
