import StartEnd.Proofs.Fault.Line
import StartEnd.Proofs.Fault.Place

/-!
# The caret of a diagnostic

A diagnostic ends with three lines: a bar, the line of the source behind a bar, and a caret
behind a bar. The bars always stand in one column. The line of the source is shown without
the white space at its ends, but only the spaces and tabs at its front are counted for the
caret. So the caret stands to the right of the character that it is about, by as many
columns as there is other white space at the front of the line, and below it exactly if
there is none.
-/

namespace StartEnd

section Trimming

variable {text inside closing : List Char} {character : Char}

/-- Spaces and tabs are white space. -/
theorem isBlank_of_isIndent (indents : isIndent character = true) :
    Text.isBlank character = true := by
  have cases : character = ' ' ∨ character = '\t' := by simpa [isIndent] using indents
  cases cases with
  | inl space =>
    rw [space]
    decide
  | inr tab =>
    rw [tab]
    decide

/-- Spaces and tabs at the front of a text are trimmed with its other white space. -/
theorem trimBlank_drop_indent (text : List Char) :
    Text.trimBlank (text.drop (text.takeWhile isIndent).length) = Text.trimBlank text := by
  have whole : text.takeWhile isIndent ++ text.dropWhile isIndent = text :=
    List.takeWhile_append_dropWhile
  have rest : text.drop (text.takeWhile isIndent).length = text.dropWhile isIndent := by
    have dropped : (text.takeWhile isIndent ++ text.dropWhile isIndent).drop
        (text.takeWhile isIndent).length = text.dropWhile isIndent := List.drop_left
    rwa [whole] at dropped
  have seen : visible text = visible (text.dropWhile isIndent) := by
    conv_lhs => rw [← whole]
    exact List.dropWhile_append_of_pos fun character member =>
      isBlank_of_isIndent (List.mem_takeWhile_imp member)
  rw [rest]
  change (visible (text.dropWhile isIndent)).rdropWhile Text.isBlank =
    (visible text).rdropWhile Text.isBlank
  rw [seen]

/-- The spaces and tabs at the front of a text come before its other white space. -/
theorem blank_eq_indent_append (text : List Char) :
    blank text = text.takeWhile isIndent ++ blank (text.dropWhile isIndent) := by
  have whole : text.takeWhile isIndent ++ text.dropWhile isIndent = text :=
    List.takeWhile_append_dropWhile
  conv_lhs => rw [← whole]
  exact List.takeWhile_append_of_pos fun character member =>
    isBlank_of_isIndent (List.mem_takeWhile_imp member)

/-- A visible character ends the white space at the front. -/
theorem blank_append_cons (seen : Text.isBlank character = false) :
    blank (inside ++ character :: closing) = blank inside := by
  have nothing : List.takeWhile Text.isBlank (character :: closing) = [] := by simp [seen]
  rw [blank, List.takeWhile_append, nothing, List.append_nil]
  by_cases all : (inside.takeWhile Text.isBlank).length = inside.length
  · rw [if_pos all]
    exact ((List.takeWhile_prefix _).eq_of_length all).symm
  · rw [if_neg all]
    rfl

/-- A visible character is seen with all that follows it. -/
theorem visible_append_cons (seen : Text.isBlank character = false) :
    visible (inside ++ character :: closing) = visible inside ++ character :: closing := by
  have whole := blank_append_visible (inside ++ character :: closing)
  rw [blank_append_cons seen] at whole
  have split := blank_append_visible inside
  have regrouped : blank inside ++ visible (inside ++ character :: closing) =
      blank inside ++ (visible inside ++ character :: closing) := by
    rw [whole, ← List.append_assoc, split]
  exact List.append_cancel_left regrouped

/-- A visible character keeps its place when the white space at the ends is trimmed. -/
theorem trimBlank_append_cons (seen : Text.isBlank character = false) :
    Text.trimBlank (inside ++ character :: closing) =
      visible inside ++ character :: closing.rdropWhile Text.isBlank := by
  change (visible (inside ++ character :: closing)).rdropWhile Text.isBlank = _
  rw [visible_append_cons seen]
  induction closing using List.reverseRecOn with
  | nil => simp [seen]
  | append_singleton closing last inductionHypothesis =>
    rw [← List.cons_append, ← List.append_assoc]
    by_cases trimmed : Text.isBlank last = true
    · rw [List.rdropWhile_concat_pos _ _ _ trimmed, List.rdropWhile_concat_pos _ _ _ trimmed,
        inductionHypothesis]
    · rw [List.rdropWhile_concat_neg _ _ _ trimmed, List.rdropWhile_concat_neg _ _ _ trimmed]
      simp

end Trimming

/-- A line of a text has a line feed at its end only. -/
theorem feed_not_mem_dropLast_of_mem {text line : List Char} (member : line ∈ splitLines text) :
    '\n' ∉ line.dropLast := by
  induction text generalizing line with
  | nil => exact absurd member List.not_mem_nil
  | cons first rest inductionHypothesis =>
    by_cases feed : first = '\n'
    · rw [splitLines, if_pos feed] at member
      cases List.mem_cons.mp member with
      | inl single => simp [single]
      | inr further => exact inductionHypothesis further
    · cases split : splitLines rest with
      | nil =>
        simp only [splitLines, feed, if_false, split, List.mem_singleton] at member
        simp [member]
      | cons other others =>
        simp only [splitLines, feed, if_false, split, List.mem_cons] at member
        cases member with
        | inl longer =>
          have short : '\n' ∉ other.dropLast := inductionHypothesis (split ▸ List.mem_cons_self)
          rw [longer]
          cases other with
          | nil => simp
          | cons second other =>
            rw [List.dropLast_cons_cons]
            exact List.not_mem_cons_of_ne_of_not_mem (Ne.symm feed) short
        | inr further => exact inductionHypothesis (split ▸ List.mem_cons_of_mem _ further)

/-- A text with a line feed at its end only has none when it is trimmed. -/
theorem feed_not_mem_trimBlank {text : List Char} (single : '\n' ∉ text.dropLast) :
    '\n' ∉ Text.trimBlank text := by
  change '\n' ∉ (visible text).rdropWhile Text.isBlank
  intro member
  have present := List.ne_nil_of_mem member
  obtain ⟨trimmed, whole⟩ := List.rdropWhile_prefix Text.isBlank (visible text)
  have visibleLast := List.rdropWhile_last_not Text.isBlank (visible text) present
  generalize (visible text).rdropWhile Text.isBlank = kept at member present whole visibleLast
  have ended := List.dropLast_append_getLast present
  -- The last character that is kept is no line feed, so there is one in front of it.
  have early : '\n' ∈ kept.dropLast := by
    rw [← ended] at member
    cases List.mem_append.mp member with
    | inl early => exact early
    | inr late =>
      rw [← List.mem_singleton.mp late] at visibleLast
      exact absurd (by decide) visibleLast
  have split : text = (blank text ++ kept.dropLast) ++ (kept.getLast present :: trimmed) := by
    conv_lhs => rw [← blank_append_visible text, ← whole, ← ended]
    simp
  apply single
  rw [split, List.dropLast_append_of_ne_nil (List.cons_ne_nil _ _)]
  exact List.mem_append_left _ (List.mem_append_right _ early)

/-- The line of a position has a line feed at its end only. -/
theorem SourceLine.feed_not_mem_dropLast (source : String) (position : Position) :
    '\n' ∉ (SourceLine.at source position).text.dropLast := by
  change '\n' ∉ (((splitLines source.toList)[position.line.toNat - 1]?).getD []).dropLast
  cases found : (splitLines source.toList)[position.line.toNat - 1]? with
  | none => simp
  | some line => exact feed_not_mem_dropLast_of_mem (List.mem_of_getElem? found)

/-- A character stands in a line behind what it does not stand in. -/
theorem idxOf?_append_cons {before after : List Char} {character : Char}
    (first : character ∉ before) :
    (before ++ character :: after).idxOf? character = some before.length := by
  induction before with
  | nil => simp [List.idxOf?_cons]
  | cons other before inductionHypothesis =>
    obtain ⟨apart, further⟩ := List.ne_and_not_mem_of_not_mem_cons first
    simp [List.idxOf?_cons, Ne.symm apart, inductionHypothesis further]

/-- The last three lines of a diagnostic are a bar, a text behind a bar, and a caret behind a
bar. The bars stand in one column, and the caret stands below the character of the text that
has the given number of others in front. -/
def PointsBelow (rendered : String) (shown : List Char) (column : Nat) : Prop :=
  ∃ header bar label pointer,
    splitLines rendered.toList = header ++ [bar, label ++ shown ++ ['\n'], pointer] ∧
    (∃ place, bar.idxOf? '|' = some place ∧
      (label ++ shown ++ ['\n']).idxOf? '|' = some place ∧ pointer.idxOf? '|' = some place) ∧
    pointer.idxOf? '^' = some (label.length + column)

/-- A caret stands in one column only. -/
theorem PointsBelow.unique {rendered : String} {shown : List Char} {left right : Nat}
    (below : PointsBelow rendered shown left) (other : PointsBelow rendered shown right) :
    left = right := by
  obtain ⟨header, bar, label, pointer, lines, _, caret⟩ := below
  obtain ⟨header', bar', label', pointer', lines', _, caret'⟩ := other
  rw [lines] at lines'
  have same := (List.append_inj' lines' rfl).2
  simp only [List.cons.injEq, List.append_cancel_right_eq, and_true] at same
  obtain ⟨_, sameLabel, samePointer⟩ := same
  rw [← sameLabel, ← samePointer, caret] at caret'
  exact Nat.add_left_cancel (Option.some.inj caret')

/-- A text of one character at the right end of a field stands behind what fills the field. -/
theorem toList_padLeft {text : String} (single : text.length = 1) (fill : Char) (width : Nat) :
    (padLeft fill (width + 1) text).toList = List.replicate width fill ++ text.toList := by
  simp [padLeft, single]

namespace SourceLine

variable (line : SourceLine)

/-- The digits of the number of a line. -/
def digits : List Char := (toString line.number).toList

/-- What stands in front of the bar where no number is shown. -/
def margin : List Char := List.replicate (line.digits.length + 1) ' '

/-- What stands in front of the shown text. -/
def label : List Char := line.digits ++ [' ', '|', ' ']

/-- The caret behind its bar. -/
def pointer : List Char :=
  line.margin ++ '|' :: ' ' ::
    (List.replicate (line.column - (line.text.takeWhile isIndent).length) '-' ++ ['^'])

variable {line}

/-- Digits are neither bars nor carets nor line feeds. -/
theorem not_mem_digits {mark : Char} (sign : mark.isDigit = false) : mark ∉ line.digits := by
  intro member
  rw [digits, Nat.toString_eq_repr, Nat.toList_repr] at member
  have digit := Nat.isDigit_of_mem_toDigits (by decide) (by decide) member
  exact absurd digit (by simp [sign])

/-- Only spaces stand in front of the bar where no number is shown. -/
theorem not_mem_margin {mark : Char} (other : mark ≠ ' ') : mark ∉ line.margin := by
  simp [margin, other]

end SourceLine

/-- A diagnostic is a header and three lines. -/
theorem Fault.toList_render (fault : Fault) (source fileName : String) (line : SourceLine)
    (found : SourceLine.at source fault.position = line) :
    ∃ header, (fault.render source fileName).toList = header ++ ['\n'] ++
      ((line.margin ++ ['|']) ++ '\n' :: ((line.label ++ Text.trimBlank line.text) ++ '\n' ::
        (line.pointer ++ ['\n']))) := by
  have spaces : (padLeft ' ' ((toString line.number).length + 2) "|").toList =
      line.margin ++ ['|'] := by
    rw [SourceLine.margin, SourceLine.digits, String.length_toList]
    exact toList_padLeft rfl _ _
  have dashes (width : Nat) : (padLeft '-' (width + 1) "^").toList =
      List.replicate width '-' ++ ['^'] := toList_padLeft rfl _ _
  refine ⟨("Error: " ++ fault.cause.name ++ " (" ++ fault.cause.tip?.getD fault.message ++
    ")\n" ++ "-> " ++ fileName).toList, ?_⟩
  unfold Fault.render
  simp only [found, String.toList_append, spaces, dashes, String.toList_ofList,
    trimBlank_drop_indent]
  simp [SourceLine.label, SourceLine.pointer, SourceLine.digits]

/-- The last three lines of a diagnostic. -/
theorem Fault.splitLines_render (fault : Fault) (source fileName : String) (line : SourceLine)
    (found : SourceLine.at source fault.position = line) :
    ∃ header, splitLines (fault.render source fileName).toList =
      header ++ [line.margin ++ ['|', '\n'], line.label ++ Text.trimBlank line.text ++ ['\n'],
        line.pointer ++ ['\n']] := by
  obtain ⟨header, written⟩ := fault.toList_render source fileName line found
  have ended : EndsLine (header ++ ['\n']) := by simp [EndsLine]
  have plain : '\n' ∉ line.digits := SourceLine.not_mem_digits (by decide)
  have spaces : '\n' ∉ line.margin := SourceLine.not_mem_margin (by decide)
  have bar : '\n' ∉ line.margin ++ ['|'] := by simp [spaces]
  have text : '\n' ∉ line.label ++ Text.trimBlank line.text := by
    have trimmed : '\n' ∉ Text.trimBlank line.text :=
      feed_not_mem_trimBlank (found ▸ SourceLine.feed_not_mem_dropLast source fault.position)
    simp [SourceLine.label, plain, trimmed]
  have pointer : '\n' ∉ line.pointer := by simp [SourceLine.pointer, spaces]
  refine ⟨splitLines (header ++ ['\n']), ?_⟩
  rw [written, splitLines_append ended, splitLines_feed bar, splitLines_feed text,
    splitLines_feed pointer]
  simp [splitLines]

/-- The caret of a diagnostic stands where the column is behind the spaces and tabs at the
front of the line. -/
theorem Fault.render_pointsBelow (fault : Fault) (source fileName : String) (line : SourceLine)
    (found : SourceLine.at source fault.position = line) :
    PointsBelow (fault.render source fileName) (Text.trimBlank line.text)
      (line.column - (line.text.takeWhile isIndent).length) := by
  obtain ⟨header, lines⟩ := fault.splitLines_render source fileName line found
  have size : line.margin.length = line.digits.length + 1 := by simp [SourceLine.margin]
  have spaces : '|' ∉ line.margin := SourceLine.not_mem_margin (by decide)
  refine ⟨header, _, _, _, lines, ⟨line.margin.length, ?_, ?_, ?_⟩, ?_⟩
  · exact idxOf?_append_cons spaces
  · have split : line.label ++ Text.trimBlank line.text ++ ['\n'] =
        (line.digits ++ [' ']) ++
          '|' :: ' ' :: (Text.trimBlank line.text ++ ['\n']) := by
      simp [SourceLine.label]
    have first : '|' ∉ line.digits ++ [' '] := by
      simpa using SourceLine.not_mem_digits (by decide)
    rw [split, idxOf?_append_cons first, size]
    simp
  · have split : line.pointer ++ ['\n'] = line.margin ++ '|' :: ' ' ::
        (List.replicate (line.column - (line.text.takeWhile isIndent).length) '-' ++
          ['^'] ++ ['\n']) := by
      simp [SourceLine.pointer]
    rw [split, idxOf?_append_cons spaces]
  · have split : line.pointer ++ ['\n'] = (line.margin ++ ['|', ' '] ++
        List.replicate (line.column - (line.text.takeWhile isIndent).length) '-') ++
          '^' :: ['\n'] := by
      simp [SourceLine.pointer]
    have first : '^' ∉ line.margin ++ ['|', ' '] ++
        List.replicate (line.column - (line.text.takeWhile isIndent).length) '-' := by
      simpa using SourceLine.not_mem_margin (by decide)
    rw [split, idxOf?_append_cons first]
    simp [SourceLine.label, size]
    omega

namespace SourceLine

variable (line : SourceLine)

/-- The column of the shown text that the place of a line has there. -/
def shownColumn : Nat := line.column - (blank line.text).length

/-- White space that is trimmed at the front of a line and not counted for the caret. -/
def uncounted : Nat := (blank line.text).length - (line.text.takeWhile isIndent).length

/-- All white space at the front of a line is counted if it is spaces and tabs. -/
theorem uncounted_eq_zero_iff :
    line.uncounted = 0 ↔ ∀ character ∈ blank line.text, isIndent character = true := by
  have split := blank_eq_indent_append line.text
  have counted : line.uncounted = (blank (line.text.dropWhile isIndent)).length := by
    rw [uncounted, split, List.length_append, Nat.add_sub_cancel_left]
  rw [counted, List.length_eq_zero_iff]
  constructor
  · intro nothing character member
    rw [split, nothing, List.append_nil] at member
    exact List.mem_takeWhile_imp member
  · intro indents
    cases rest : line.text.dropWhile isIndent with
    | nil => rfl
    | cons first others =>
      have stops := List.head?_dropWhile_not isIndent line.text
      rw [rest] at stops split
      by_cases white : Text.isBlank first = true
      · have member : first ∈ blank line.text := by
          have taken : blank (first :: others) = first :: blank others :=
            List.takeWhile_cons_of_pos white
          rw [split, taken]
          exact List.mem_append_right _ List.mem_cons_self
        exact absurd (indents first member) (by simpa using stops)
      · exact List.takeWhile_cons_of_neg white

/-- A visible character at the place of a line is shown in the column that the place has
there, and the caret stands behind it by the white space that is not counted. -/
theorem shown_of_visible {source : String} {position : Position} {front rest : List Char}
    {character : Char} (found : SourceLine.at source position = line)
    (split : source.toList = front ++ character :: rest) (exact : position.Exact front)
    (seen : Text.isBlank character = false) :
    (Text.trimBlank line.text)[line.shownColumn]? = some character ∧
      line.column - (line.text.takeWhile isIndent).length =
        line.shownColumn + line.uncounted := by
  obtain ⟨before, after, whole, cut, within, ahead⟩ := SourceLine.at_exact split exact
  have number : line.number = 1 + front.count '\n' := by
    rw [← found]
    exact exact.line
  rw [found] at whole cut within ahead
  obtain ⟨closing, text⟩ : ∃ closing,
      line.text = line.text.take line.column ++ character :: closing := by
    have cutText := List.take_append_drop line.column line.text
    have behind : line.text.drop line.column ++ after = character :: rest := by
      have regrouped : front ++ (line.text.drop line.column ++ after) =
          front ++ character :: rest := by
        rw [← split, whole]
        conv_lhs => rw [ahead]
        rw [List.append_assoc, ← List.append_assoc (line.text.take line.column), cutText,
          List.append_assoc]
      exact List.append_cancel_left regrouped
    cases remaining : line.text.drop line.column with
    | nil =>
      -- The line would end in front of the place, with a line feed that is not counted.
      rw [remaining, List.append_nil] at cutText
      rw [remaining, List.nil_append] at behind
      have feed : '\n' ∈ line.text := cut.ended.resolve_right (by simp [behind])
      rw [cut.numbered, ahead, cutText, List.count_append] at number
      have counted := List.count_pos_iff.mpr feed
      omega
    | cons first closing =>
      rw [remaining, List.cons_append] at behind
      obtain ⟨rfl, _⟩ := List.cons.inj behind
      rw [remaining] at cutText
      exact ⟨closing, cutText.symm⟩
  have size : (line.text.take line.column).length = line.column := List.length_take_of_le within
  generalize line.text.take line.column = inside at text size
  have white : blank line.text = blank inside := by rw [text, blank_append_cons seen]
  have parts := congrArg List.length (blank_append_visible inside)
  rw [List.length_append] at parts
  have indents := congrArg List.length (blank_eq_indent_append line.text)
  rw [List.length_append] at indents
  have column : line.shownColumn = (visible inside).length := by
    rw [shownColumn, white]
    omega
  constructor
  · rw [column, text, trimBlank_append_cons seen, List.getElem?_append_right (Nat.le_refl _),
      Nat.sub_self]
    rfl
  · rw [column, uncounted, white]
    rw [white] at indents
    omega

end SourceLine

/-- Every item that is delivered begins at a visible character or at the end. -/
theorem Delivers.begins_visible {read text : List Char} {items : List Item}
    (delivers : Delivers read text items) :
    ∀ item ∈ items, ∃ front rest, read ++ text = front ++ rest ∧
      item.span.start = .behind front ∧ visible rest = rest := by
  have whole (read text : List Char) : read ++ text = read ++ blank text ++ visible text := by
    rw [List.append_assoc, blank_append_visible]
  induction delivers with
  | @ending read text nothing =>
    intro item member
    rw [List.mem_singleton.mp member]
    exact ⟨read ++ text, [], by simp, rfl, rfl⟩
  | @fault read text others first split unknown =>
    intro item member
    rw [List.mem_singleton.mp member]
    exact ⟨read ++ blank text, visible text, whole read text, rfl, visible_visible text⟩
  | @token read text rest token items matched start stop others inductionHypothesis =>
    intro item member
    cases List.mem_cons.mp member with
    | inl first =>
      rw [first]
      exact ⟨read ++ blank text, visible text, whole read text, start, visible_visible text⟩
    | inr later =>
      rw [matched.whole read]
      exact inductionHypothesis item later

/-- A fault in front of the end of a source is found at a visible character. -/
theorem Program.exists_visible_of_fault {source : String} {fault : Fault}
    (short : source.utf8ByteSize < 2 ^ 32 - 1) (failed : Program.parse source = .error fault)
    (inside : fault.position.offset.toNat < source.utf8ByteSize) :
    ∃ front character rest, source.toList = front ++ character :: rest ∧
      fault.position.Exact front ∧ Text.isBlank character = false := by
  have small : byteLength source.toList < 2 ^ 32 - 1 := byteLength_toList source ▸ short
  obtain ⟨item, given, met⟩ := Program.exists_item_of_fault failed
  obtain ⟨front, rest, split, start, seen⟩ := (items_delivers source).begins_visible item given
  rw [List.nil_append] at split
  have exact : fault.position.Exact front := by
    rw [met.position_eq, start]
    exact Position.exact_of_front (split ▸ List.prefix_append _ _) small
  cases rest with
  | nil =>
    rw [exact.offset, ← byteLength_toList, split, List.append_nil] at inside
    exact absurd inside (Nat.lt_irrefl _)
  | cons character rest =>
    have printed : Text.isBlank character = false := by
      have stops := List.head?_dropWhile_not Text.isBlank (character :: rest)
      rw [visible] at seen
      simpa [seen] using stops
    exact ⟨front, character, rest, split, exact, printed⟩

/-- A fault in front of the end of a source that is short enough for its positions is shown
with the character at which it was found, and with the bars of the last three lines in one
column. The caret stands behind this character by the white space at the front of its line
that is neither space nor tab, or follows such, and so below the character exactly if there
is no such white space. -/
theorem Program.caret_below_iff (source fileName : String) (fault : Fault)
    (short : source.utf8ByteSize < 2 ^ 32 - 1) (failed : Program.parse source = .error fault)
    (inside : fault.position.offset.toNat < source.utf8ByteSize) :
    ∃ front character rest line, source.toList = front ++ character :: rest ∧
      fault.position.offset.toNat = byteLength front ∧
      SourceLine.at source fault.position = line ∧
      (Text.trimBlank line.text)[line.shownColumn]? = some character ∧
      (∀ column, PointsBelow (fault.render source fileName) (Text.trimBlank line.text) column ↔
        column = line.shownColumn + line.uncounted) ∧
      (PointsBelow (fault.render source fileName) (Text.trimBlank line.text) line.shownColumn ↔
        ∀ character ∈ blank line.text, isIndent character = true) := by
  obtain ⟨front, character, rest, split, exact, seen⟩ :=
    Program.exists_visible_of_fault short failed inside
  generalize found : SourceLine.at source fault.position = line
  obtain ⟨shown, column⟩ := line.shown_of_visible found split exact seen
  have points := fault.render_pointsBelow source fileName line found
  rw [column] at points
  have only (other : Nat) :
      PointsBelow (fault.render source fileName) (Text.trimBlank line.text) other ↔
        other = line.shownColumn + line.uncounted := by
    constructor
    · intro below
      exact below.unique points
    · rintro rfl
      exact points
  refine ⟨front, character, rest, line, split, exact.offset, rfl, shown, only, ?_⟩
  rw [only, ← line.uncounted_eq_zero_iff]
  omega

/-- Behind a space and a tab, the caret stands below the character that begins no token. -/
theorem Program.caret_below_tab :
    let source := "Start\n \ta = @\nEnd"
    let fault : Fault := ⟨.unrecognisedCharacter '@', ⟨12, 2, 7⟩⟩
    Program.parse source = .error fault ∧
    PointsBelow (fault.render source "main.sl") "a = @".toList 4 := by
  intro source fault
  have failed : Program.parse source = .error fault := by decide +kernel
  obtain ⟨_, _, _, line, _, _, found, _, _, below⟩ :=
    Program.caret_below_iff source "main.sl" fault (by decide) failed (by decide)
  have known : line = ⟨2, " \ta = @\n".toList, 6⟩ := by
    rw [← found]
    decide
  have indents := (SourceLine.uncounted_eq_zero_iff ⟨2, " \ta = @\n".toList, 6⟩).mp (by decide)
  rw [known] at below
  exact ⟨failed, below.mpr indents⟩

/-- Behind a no-break space, the caret stands one column behind the character that begins no
token, and below nothing. -/
theorem Program.caret_shifted :
    let source := "Start\n\u00a0a = @\nEnd"
    let fault : Fault := ⟨.unrecognisedCharacter '@', ⟨12, 2, 6⟩⟩
    Program.parse source = .error fault ∧
    (∃ front rest, source.toList = front ++ '@' :: rest ∧
      fault.position.offset.toNat = byteLength front) ∧
    Text.trimBlank (SourceLine.at source fault.position).text = "a = @".toList ∧
    PointsBelow (fault.render source "main.sl") "a = @".toList 5 ∧
    ¬ PointsBelow (fault.render source "main.sl") "a = @".toList 4 := by
  intro source fault
  have failed : Program.parse source = .error fault := by decide +kernel
  have shown : Text.trimBlank (SourceLine.at source fault.position).text = "a = @".toList := by
    decide
  have column : (SourceLine.at source fault.position).column -
      ((SourceLine.at source fault.position).text.takeWhile isIndent).length = 5 := by
    decide
  have points := fault.render_pointsBelow source "main.sl" _ rfl
  rw [shown, column] at points
  have place : source.toList = "Start\n\u00a0a = ".toList ++ '@' :: "\nEnd".toList := by decide
  refine ⟨failed, ⟨_, _, place, by decide⟩, shown, points, fun below => ?_⟩
  exact absurd (below.unique points) (by decide)

end StartEnd
