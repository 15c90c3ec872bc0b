import Mathlib.Logic.Relation
import StartEnd.Fault.Diagnostic
import StartEnd.Proofs.Lexing.Lossless

/-!
# The line of a position

Lines are told apart twice. A cursor counts line feeds and characters while it moves over
the source. A diagnostic cuts the source into lines and takes the one that has the number
of a position. At every position that reading a source comes by, both agree: the lines in
front of the line that is found, and the first characters of this line up to the column,
are what the source has in front of the position.

Behind the last line feed of a source there is a line without text. It is found at the end
of the source only.
-/

namespace StartEnd

/-- A text that is empty or ends with a line feed. -/
def EndsLine (text : List Char) : Prop := ∀ last ∈ text.getLast?, last = '\n'

/-- A text cut around the line with a given number. All lines in front end with a line feed,
and so does the line itself, unless nothing follows it. -/
structure LineCut (number : Nat) (before line after : List Char) : Prop where
  numbered : number = 1 + before.count '\n'
  begins : EndsLine before
  single : '\n' ∉ line.dropLast
  ended : '\n' ∈ line ∨ after = []

/-- What ends with a line feed does so behind its first character. -/
theorem EndsLine.tail {first : Char} {rest : List Char} (ends : EndsLine (first :: rest)) :
    EndsLine rest := by
  cases rest with
  | nil => simp [EndsLine]
  | cons second rest => simpa [EndsLine, List.getLast?_cons_cons] using ends

/-- A character that begins a line of several characters stands in front of its others. -/
theorem splitLines_cons_of_ne {first : Char} {rest : List Char} (inside : first ≠ '\n')
    (more : rest ≠ []) :
    ∃ line lines, splitLines rest = line :: lines ∧
      splitLines (first :: rest) = (first :: line) :: lines := by
  cases split : splitLines rest with
  | nil =>
    have whole := flatten_splitLines rest
    rw [split] at whole
    exact absurd whole.symm more
  | cons line lines =>
    have joined : splitLines (first :: rest) = (first :: line) :: lines := by
      simp [splitLines, inside, split]
    exact ⟨line, lines, rfl, joined⟩

/-- Lines that are ended stay as they are in front of a text. The induction is over the
characters in front. -/
theorem splitLines_append {before : List Char} (ends : EndsLine before) (text : List Char) :
    splitLines (before ++ text) = splitLines before ++ splitLines text := by
  induction before with
  | nil => rfl
  | cons first rest inductionHypothesis =>
    have further := inductionHypothesis ends.tail
    by_cases feed : first = '\n'
    · simp [splitLines, feed, further]
    · have more : rest ≠ [] := by
        rintro rfl
        exact feed (ends first (by simp))
      obtain ⟨line, lines, split, joined⟩ := splitLines_cons_of_ne feed more
      rw [split] at further
      rw [joined, List.cons_append, splitLines, if_neg feed, further]
      simp

/-- There are as many ended lines as line feeds. -/
theorem length_splitLines {before : List Char} (ends : EndsLine before) :
    (splitLines before).length = before.count '\n' := by
  induction before with
  | nil => rfl
  | cons first rest inductionHypothesis =>
    have further := inductionHypothesis ends.tail
    by_cases feed : first = '\n'
    · simp [splitLines, feed, further]
    · have more : rest ≠ [] := by
        rintro rfl
        exact feed (ends first (by simp))
      obtain ⟨line, lines, split, joined⟩ := splitLines_cons_of_ne feed more
      rw [joined, List.count_cons_of_ne feed, ← further, split]
      simp

/-- Characters up to a line feed are a line. -/
theorem splitLines_feed {line : List Char} (plain : '\n' ∉ line) (rest : List Char) :
    splitLines (line ++ '\n' :: rest) = (line ++ ['\n']) :: splitLines rest := by
  induction line with
  | nil => simp [splitLines]
  | cons first others inductionHypothesis =>
    obtain ⟨other, further⟩ := List.ne_and_not_mem_of_not_mem_cons plain
    simp [splitLines, Ne.symm other, inductionHypothesis further]

/-- Characters without a line feed are a line. -/
theorem splitLines_single {line : List Char} (plain : '\n' ∉ line) (present : line ≠ []) :
    splitLines line = [line] := by
  induction line with
  | nil => exact absurd rfl present
  | cons first others inductionHypothesis =>
    obtain ⟨other, further⟩ := List.ne_and_not_mem_of_not_mem_cons plain
    cases others with
    | nil => simp [splitLines, Ne.symm other]
    | cons second others =>
      have rest := inductionHypothesis further (by simp)
      rw [splitLines, if_neg (Ne.symm other), rest]

namespace LineCut

variable {number : Nat} {before line after : List Char}

/-- A line with a line feed has it at its end and nowhere else. -/
theorem exists_feed (cut : LineCut number before line after) (fed : '\n' ∈ line) :
    ∃ body, line = body ++ ['\n'] ∧ '\n' ∉ body := by
  have present : line ≠ [] := List.ne_nil_of_mem fed
  have whole := List.dropLast_append_getLast present
  have last : line.getLast present = '\n' := by
    rw [← whole] at fed
    cases List.mem_append.mp fed with
    | inl early => exact absurd early cut.single
    | inr late => exact (List.mem_singleton.mp late).symm
  rw [last] at whole
  exact ⟨line.dropLast, whole.symm, cut.single⟩

/-- The line that is cut out is found under its number. -/
theorem found (cut : LineCut number before line after) :
    ((splitLines (before ++ line ++ after))[number - 1]?).getD [] = line := by
  have index : number - 1 = (splitLines before).length := by
    rw [length_splitLines cut.begins, cut.numbered, Nat.add_sub_cancel_left]
  have first : (splitLines (before ++ line ++ after))[number - 1]? =
      (splitLines (line ++ after))[0]? := by
    rw [List.append_assoc, splitLines_append cut.begins, index,
      List.getElem?_append_right (Nat.le_refl _), Nat.sub_self]
  rw [first]
  by_cases fed : '\n' ∈ line
  · obtain ⟨body, split, plain⟩ := cut.exists_feed fed
    have regrouped : line ++ after = body ++ '\n' :: after := by simp [split]
    rw [regrouped, splitLines_feed plain, split]
    rfl
  · have last : after = [] := cut.ended.resolve_left fed
    rw [last, List.append_nil]
    by_cases empty : line = []
    · rw [empty]
      rfl
    · rw [splitLines_single fed empty]
      rfl

/-- A line without text stands behind everything. -/
theorem eq_nil (cut : LineCut number before [] after) : after = [] :=
  cut.ended.resolve_left List.not_mem_nil

end LineCut

/-- Every place in a text stands in a line, behind the characters since the last line
feed. -/
theorem exists_lineCut (front rest : List Char) :
    ∃ before closing after, rest = closing ++ after ∧
      front = before ++ front.rtakeWhile (· ≠ '\n') ∧
      LineCut (1 + front.count '\n') before (front.rtakeWhile (· ≠ '\n') ++ closing) after := by
  have whole : front.rdropWhile (· ≠ '\n') ++ front.rtakeWhile (· ≠ '\n') = front :=
    List.rdropWhile_append_rtakeWhile
  have since : '\n' ∉ front.rtakeWhile (· ≠ '\n') := by
    intro member
    simpa using List.mem_rtakeWhile_imp member
  have numbered : 1 + front.count '\n' = 1 + (front.rdropWhile (· ≠ '\n')).count '\n' := by
    conv_lhs => rw [← whole, List.count_append, List.count_eq_zero_of_not_mem since, Nat.add_zero]
  have begins : EndsLine (front.rdropWhile (· ≠ '\n')) := by
    intro last isLast
    obtain ⟨present, rfl⟩ := List.mem_getLast?_eq_getLast isLast
    simpa using List.rdropWhile_last_not (· ≠ '\n') front present
  by_cases fed : '\n' ∈ rest
  · obtain ⟨body, after, split, plain⟩ := List.eq_append_cons_of_mem fed
    have single : '\n' ∉ (front.rtakeWhile (· ≠ '\n') ++ (body ++ ['\n'])).dropLast := by
      rw [← List.append_assoc, List.dropLast_concat]
      exact fun member => (List.mem_append.mp member).elim since plain
    exact ⟨_, body ++ ['\n'], after, by simp [split], whole.symm, numbered, begins, single,
      .inl (by simp)⟩
  · have single : '\n' ∉ (front.rtakeWhile (· ≠ '\n') ++ rest).dropLast := by
      intro member
      exact (List.mem_append.mp (List.mem_of_mem_dropLast member)).elim since fed
    exact ⟨_, rest, [], by simp, whole.symm, numbered, begins, single, .inr rfl⟩

/-- The line of an exact position is the one that the position stands in. -/
theorem SourceLine.at_exact {source : String} {position : Position} {front rest : List Char}
    (split : source.toList = front ++ rest) (exact : position.Exact front) :
    ∃ before after,
      source.toList = before ++ (SourceLine.at source position).text ++ after ∧
      LineCut (SourceLine.at source position).number before (SourceLine.at source position).text
        after ∧
      (SourceLine.at source position).column ≤ (SourceLine.at source position).text.length ∧
      front = before ++
        (SourceLine.at source position).text.take (SourceLine.at source position).column := by
  obtain ⟨before, closing, after, behind, ahead, cut⟩ := exists_lineCut front rest
  have whole : source.toList = before ++ (front.rtakeWhile (· ≠ '\n') ++ closing) ++ after := by
    rw [split, behind]
    conv_lhs => rw [ahead]
    simp only [List.append_assoc]
  have text : (SourceLine.at source position).text = front.rtakeWhile (· ≠ '\n') ++ closing := by
    change ((splitLines source.toList)[position.line.toNat - 1]?).getD [] = _
    rw [whole, exact.line]
    exact cut.found
  have column : (SourceLine.at source position).column =
      (front.rtakeWhile (· ≠ '\n')).length := by
    change position.column.toNat - 1 = _
    rw [exact.column, Nat.add_sub_cancel_left]
  have number : (SourceLine.at source position).number = 1 + front.count '\n' := exact.line
  refine ⟨before, after, ?_, ?_, ?_, ?_⟩
  · rw [text]
    exact whole
  · rw [number, text]
    exact cut
  · rw [column, text, List.length_append]
    exact Nat.le_add_right _ _
  · rw [text, column, List.take_left]
    exact ahead

/-- A position behind the first characters of a text. -/
def Position.Within (text : List Char) (position : Position) : Prop :=
  ∃ front, front <+: text ∧ position = .behind front

/-- An item whose span lies in a text. -/
def Item.Within (text : List Char) (item : Item) : Prop :=
  item.span.start.Within text ∧ item.span.stop.Within text

namespace Cursor

/-- A cursor at a place in a text, with all that stands behind the place left to read. -/
def Inside (text : List Char) (cursor : Cursor) : Prop :=
  ∃ front, text = front ++ cursor.rest ∧ cursor.overrun = 0 ∧ cursor.position = .behind front

variable {text taken : List Char} {cursor following : Cursor}

/-- A cursor in a text stands at a position in it. -/
theorem Inside.within (inside : cursor.Inside text) : cursor.position.Within text := by
  obtain ⟨front, split, _, place⟩ := inside
  exact ⟨front, split ▸ List.prefix_append _ _, place⟩

/-- A cursor stays in a text when it moves over what is left to read. -/
theorem Inside.advance (inside : cursor.Inside text) (next : taken <+: cursor.rest) :
    (cursor.advance taken).Inside text := by
  obtain ⟨front, split, exact, place⟩ := inside
  obtain ⟨rest, further⟩ := next
  have dropped : dropBytes cursor.rest (cursor.overrun + byteLength taken) = (rest, 0) := by
    rw [exact, Nat.zero_add, ← further, dropBytes_append]
  refine ⟨front ++ taken, ?_, ?_, ?_⟩
  · have left : (cursor.advance taken).rest = rest := by simp [Cursor.advance, dropped]
    rw [left, split, ← further, List.append_assoc]
  · simp [Cursor.advance, dropped]
  · rw [position_advance, place, Position.after_behind]

/-- A look at a text leaves the cursor in it, and shows only what lies in it. -/
theorem look_inside (inside : cursor.Inside text) {seen : Look}
    (looked : cursor.look Pattern.all = .ok seen) :
    match seen with
    | .item item following => following.Inside text ∧ item.Within text
    | .blank following => following.Inside text
    | .nothing => True := by
  have here := inside.within
  unfold look at looked
  split at looked
  case isTrue finished =>
    obtain rfl := Except.ok.inj looked
    trivial
  case isFalse unfinished =>
    split at looked
    case h_1 ended =>
      obtain rfl := Except.ok.inj looked
      exact ⟨inside, here, here⟩
    case h_2 first others ahead =>
      split at looked
      case isTrue off => exact absurd looked (by simp)
      case isFalse on =>
        split at looked
        case h_1 unknown =>
          obtain rfl := Except.ok.inj looked
          exact ⟨inside, here, here⟩
        case h_2 pattern taken best =>
          have next : taken <+: cursor.rest := by
            rw [(Pattern.longest?_eq_some best).2.1]
            exact pattern.taken_isPrefix _
          have moved := inside.advance next
          split at looked
          case h_1 isBlank =>
            obtain rfl := Except.ok.inj looked
            exact moved
          case h_2 kind isKind =>
            obtain rfl := Except.ok.inj looked
            have stop := moved.within
            rw [position_advance] at stop
            exact ⟨moved, here, stop⟩

/-- Asking a cursor in a text for an item leaves it in the text, and the item lies in it. -/
theorem next_inside (inside : cursor.Inside text) {item? : Option Item}
    (asked : cursor.next = .ok (item?, following)) :
    following.Inside text ∧ ∀ item ∈ item?, item.Within text := by
  unfold next nextBy at asked
  cases looked : cursor.look Pattern.all with
  | error off => simp [looked, bind, Except.bind] at asked
  | ok seen =>
    have first := look_inside inside looked
    rw [looked] at asked
    cases seen with
    | item item behind =>
      obtain ⟨rfl, rfl⟩ := Prod.mk.inj (Except.ok.inj asked)
      simpa using first
    | nothing =>
      obtain ⟨rfl, rfl⟩ := Prod.mk.inj (Except.ok.inj asked)
      simpa using inside
    | blank between =>
      cases again : between.look Pattern.all with
      | error off => simp [again, bind, Except.bind] at asked
      | ok seen =>
        have second := look_inside first again
        simp only [bind, Except.bind, again] at asked
        cases seen with
        | item item behind =>
          obtain ⟨rfl, rfl⟩ := Prod.mk.inj (Except.ok.inj asked)
          simpa using second
        | nothing =>
          obtain ⟨rfl, rfl⟩ := Prod.mk.inj (Except.ok.inj asked)
          simpa using first
        | blank behind =>
          obtain ⟨rfl, rfl⟩ := Prod.mk.inj (Except.ok.inj asked)
          simpa using first

/-- One call leads from a cursor to another. -/
def Moves (cursor following : Cursor) : Prop := ∃ item?, cursor.next = .ok (item?, following)

/-- However often it is asked, a cursor stays in its text. -/
theorem Inside.reached (inside : cursor.Inside text)
    (reached : Relation.ReflTransGen Moves cursor following) : following.Inside text := by
  induction reached with
  | refl => exact inside
  | tail _ step inductionHypothesis =>
    obtain ⟨item?, asked⟩ := step
    exact (next_inside inductionHypothesis asked).1

end Cursor

/-- The positions that reading a source comes by: where its cursor stands behind some calls,
and where the items that it gives begin and end. -/
inductive Source.Visits (source : String) : Position → Prop where
  | standing {cursor : Cursor}
      (reached : Relation.ReflTransGen Cursor.Moves (Cursor.start source) cursor) :
    Visits source cursor.position
  | start {cursor following : Cursor} {item : Item}
      (reached : Relation.ReflTransGen Cursor.Moves (Cursor.start source) cursor)
      (asked : cursor.next = .ok (some item, following)) : Visits source item.span.start
  | stop {cursor following : Cursor} {item : Item}
      (reached : Relation.ReflTransGen Cursor.Moves (Cursor.start source) cursor)
      (asked : cursor.next = .ok (some item, following)) : Visits source item.span.stop

/-- Reading a source comes by positions in it only. -/
theorem Source.Visits.within {source : String} {position : Position}
    (visits : Source.Visits source position) : position.Within source.toList := by
  have begun : (Cursor.start source).Inside source.toList := ⟨[], rfl, rfl, rfl⟩
  cases visits with
  | standing reached => exact (begun.reached reached).within
  | start reached asked =>
    exact ((Cursor.next_inside (begun.reached reached) asked).2 _ rfl).1
  | stop reached asked =>
    exact ((Cursor.next_inside (begun.reached reached) asked).2 _ rfl).2

/-- The first bytes of a source are those of its first characters. -/
theorem Source.extract_front {source : String} {front rest : List Char}
    (split : source.toList = front ++ rest) :
    source.toByteArray.extract 0 (byteLength front) = (String.ofList front).toByteArray := by
  have whole : source = String.ofList front ++ String.ofList rest := by
    rw [← String.ofList_append, ← split, String.ofList_toList]
  have sized : (String.ofList front).toByteArray.size = byteLength front := by
    rw [String.size_toByteArray, ← byteLength_toList, String.toList_ofList]
  rw [whole, String.toByteArray_append, ← sized, ByteArray.extract_append_eq_left rfl]

/-- The line that is looked up for a position is the line in which reading a source comes by
it. The lines in front and the characters of the line up to the column are the bytes of the
source in front of the position, and there is no line only at the end of a source that is
empty or ends with a line feed. -/
theorem Source.line_of_visited (source : String) (short : source.utf8ByteSize < 2 ^ 32 - 1)
    (position : Position) (visits : Source.Visits source position) :
    ∃ before after,
      source.toList = before ++ (SourceLine.at source position).text ++ after ∧
      LineCut (SourceLine.at source position).number before (SourceLine.at source position).text
        after ∧
      (SourceLine.at source position).column ≤ (SourceLine.at source position).text.length ∧
      source.toByteArray.extract 0 position.offset.toNat =
        (String.ofList (before ++ (SourceLine.at source position).text.take
          (SourceLine.at source position).column)).toByteArray ∧
      ((SourceLine.at source position).text = [] →
        position.offset.toNat = source.utf8ByteSize ∧ EndsLine source.toList) := by
  have small : byteLength source.toList < 2 ^ 32 - 1 := byteLength_toList source ▸ short
  obtain ⟨front, ⟨rest, split⟩, rfl⟩ := visits.within
  have exact := Position.exact_of_front ⟨rest, split⟩ small
  obtain ⟨before, after, whole, cut, inside, ahead⟩ := SourceLine.at_exact split.symm exact
  refine ⟨before, after, whole, cut, inside, ?_, fun empty => ?_⟩
  · rw [exact.offset, ← ahead]
    exact Source.extract_front split.symm
  · rw [empty] at cut whole ahead
    have last := cut.eq_nil
    rw [List.append_nil, last, List.append_nil] at whole
    rw [List.take_nil, List.append_nil] at ahead
    constructor
    · rw [exact.offset, ahead, ← whole, byteLength_toList]
    · rw [whole]
      exact cut.begins

/-- Behind a line feed and a wide space, the second line is found with one character in front
of the name. -/
theorem Source.line_of_visited_wide :
    let source := "a\n\u3000b\n"
    let position : Position := ⟨5, 2, 2⟩
    Source.Visits source position ∧
    SourceLine.at source position = ⟨2, "\u3000b\n".toList, 1⟩ ∧
    ∃ before after, source.toList = before ++ "\u3000b\n".toList ++ after ∧
      source.toByteArray.extract 0 5 = (String.ofList (before ++ ['\u3000'])).toByteArray := by
  intro source position
  have visits : Source.Visits source position := by
    let behind : Cursor := ⟨"\n\u3000b\n".toList, 0, 1, 1, 2, false⟩
    let last : Cursor := ⟨['\n'], 0, 6, 2, 3, false⟩
    have first : (Cursor.start source).next =
        .ok (some (.ok ⟨.identifier, "a", ⟨⟨0, 1, 1⟩, ⟨1, 1, 2⟩⟩⟩), behind) := by
      decide +kernel
    have second : behind.next =
        .ok (some (.ok ⟨.identifier, "b", ⟨position, ⟨6, 2, 3⟩⟩⟩), last) := by
      decide +kernel
    exact .start (.single ⟨_, first⟩) second
  have line : SourceLine.at source position = ⟨2, "\u3000b\n".toList, 1⟩ := by decide
  obtain ⟨before, after, whole, _, _, bytes, _⟩ :=
    Source.line_of_visited source (by decide) position visits
  rw [line] at whole bytes
  exact ⟨visits, line, before, after, whole, bytes⟩

end StartEnd
