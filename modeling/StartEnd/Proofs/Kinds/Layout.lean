import StartEnd.Proofs.Kinds.Program
import StartEnd.Proofs.Lexing.Lexeme

/-!
# Layouts

Tokens can be laid out as a source: their texts in a row, with white space around them, some of
it between any two. Reading the source gives the tokens back, whatever the white space is, and
then the end of the input. So the layout of a source is of no consequence for its program.
-/

namespace StartEnd

/-- A token with a text that is read as one of its kind. -/
def Token.Printed (token : Token) : Prop :=
  token.kind.lexeme? = some token.value ∨
    token.kind = .identifier ∧ IsName token.value ∨ token.kind = .number ∧ IsNumeral token.value

instance (token : Token) : Decidable token.Printed := inferInstanceAs (Decidable (_ ∨ _ ∨ _))

/-- White space around a number of tokens, some of it between any two of them. -/
structure Layout (count : Nat) where
  /-- What stands before the token of an index, or behind all of them. -/
  gap : Nat → List Char
  isBlank : ∀ index, ∀ character ∈ gap index, Text.isBlank character = true
  parted : ∀ index, 0 < index → index < count → gap index ≠ []

namespace Layout

/-- White space and texts in turn. -/
def spread (gap : Nat → List Char) : List Token → List Char
  | [] => gap 0
  | token :: rest =>
    gap 0 ++ (token.value.toList ++ spread (fun index => gap (index + 1)) rest)

/-- The same white space between any two tokens. -/
def uniform {count : Nat} (front between back : List Char)
    (isBlank : (front ++ between ++ back).all Text.isBlank = true)
    (present : between ≠ []) : Layout count where
  gap index := if index = 0 then front else if index < count then between else back
  isBlank index character member := by
    refine List.all_eq_true.mp isBlank character ?_
    split at member
    · simp [member]
    · split at member <;> simp [member]
  parted index positive inside := by
    rwa [if_neg (Nat.ne_of_gt positive), if_pos inside]

/-- The source in which tokens are laid out. -/
def source {count : Nat} (layout : Layout count) (tokens : List Token) : String :=
  .ofList (spread layout.gap tokens)

end Layout

/-- What a token is known by is its text. -/
theorem Token.Printed.characters {token : Token} (printed : token.Printed) :
    token.lexeme.characters = token.value.toList := by
  rcases printed with spelled | ⟨same, _⟩ | ⟨same, _⟩
  · have closed : token.kind.isOpen = false := by
      rcases token with ⟨kind, value, span⟩
      cases kind <;> first | rfl | exact absurd spelled (by simp [Token.Kind.lexeme?])
    simp [Token.lexeme, Lexeme.characters, Token.Kind.characters, closed, spelled]
  · simp [Token.lexeme, Lexeme.characters, Token.Kind.isOpen, same]
  · simp [Token.lexeme, Lexeme.characters, Token.Kind.isOpen, same]

/-- What is printed can be read. -/
theorem Token.Printed.proper {token : Token} (printed : token.Printed) : token.lexeme.Proper := by
  rcases token with ⟨kind, value, span⟩
  rcases printed with spelled | ⟨same, isName⟩ | ⟨same, isNumeral⟩
  · have listed : kind.lexeme? ≠ none → kind.isOpen = false ∧
        (kind ∈ Token.Kind.reserved ∨ kind ∈ signs) := by
      cases kind <;> decide
    obtain ⟨closed, isReserved | isSign⟩ := listed (by rw [spelled]; exact Option.some_ne_none _)
    · simpa [Token.lexeme, closed] using Lexeme.Proper.reserved isReserved
    · simpa [Token.lexeme, closed] using Lexeme.Proper.sign isSign
  · obtain rfl : kind = .identifier := same
    exact .name isName
  · obtain rfl : kind = .number := same
    exact .numeral isNumeral

/-- White space continues no word and makes no sign longer. -/
theorem not_continued_of_isBlank {character : Char} (isBlank : Text.isBlank character = true) :
    isWordPart character = false ∧ character ∉ ['=', '+', '-', '*'] := by
  have noClass (pattern : Pattern) (isClass : pattern ∈ Pattern.classes)
      (other : pattern ≠ .blanks) : ¬ pattern.Opens character := fun opens =>
    other (Pattern.eq_of_opens (by decide) isClass isBlank opens)
  constructor
  · have noWord : isWordStart character ≠ true := noClass .word (by decide) (by decide)
    have noDigit : character.isDigit ≠ true :=
      noClass .digits (by decide) (by decide)
    simp only [isWordStart, Bool.not_eq_true, Bool.or_eq_false_iff] at noWord noDigit
    simp [isWordPart, Char.isAlphanum, noWord, noDigit]
  · intro listed
    have seen : ['=', '+', '-', '*'].all (fun sign => !Text.isBlank sign) = true := by decide
    simpa [isBlank] using List.all_eq_true.mp seen character listed

/-- Every lexeme ends in front of white space, and at the end of a text. -/
theorem Lexeme.ends_of_isBlank (lexeme : Lexeme) {rest : List Char}
    (isBlank : ∀ next ∈ rest.head?, Text.isBlank next = true) : lexeme.Ends rest := by
  unfold Lexeme.Ends
  split
  · exact fun _ next isNext => (not_continued_of_isBlank (isBlank next isNext)).2
  · exact fun next isNext => (not_continued_of_isBlank (isBlank next isNext)).1

/-- White space in front of a text adds no lexemes. -/
theorem Lexes.blanks {gap text : List Char} {lexemes : List Lexeme}
    (isBlank : ∀ character ∈ gap, Text.isBlank character = true) (rest : Lexes text lexemes) :
    Lexes (gap ++ text) lexemes := by
  induction gap with
  | nil => exact rest
  | cons first others inductionHypothesis =>
    obtain ⟨isFirst, areBlank⟩ := List.forall_mem_cons.mp isBlank
    exact .blank isFirst (inductionHypothesis areBlank)

/-- Tokens that are laid out have their lexemes. The induction is over the tokens. -/
theorem Layout.lexes {tokens : List Token} (printed : ∀ token ∈ tokens, token.Printed)
    (layout : Layout tokens.length) :
    Lexes (spread layout.gap tokens) (tokens.map Token.lexeme) := by
  obtain ⟨gap, isBlank, parted⟩ := layout
  induction tokens generalizing gap with
  | nil => simpa [spread] using Lexes.blanks (isBlank 0) .nil
  | cons token rest inductionHypothesis =>
    obtain ⟨isPrinted, arePrinted⟩ := List.forall_mem_cons.mp printed
    have behind := inductionHypothesis arePrinted (fun index => gap (index + 1))
      (fun index => isBlank (index + 1))
      fun index positive inside => parted (index + 1) (Nat.succ_pos _) (Nat.succ_lt_succ inside)
    refine .blanks (isBlank 0) ?_
    rw [← isPrinted.characters]
    refine .lexeme isPrinted.proper (token.lexeme.ends_of_isBlank fun next isNext => ?_) behind
    refine isBlank 1 next ?_
    rcases rest with _ | ⟨second, others⟩
    · exact List.mem_of_mem_head? isNext
    · obtain ⟨first, more, split⟩ := List.exists_cons_of_ne_nil (parted 1 (by simp) (by simp))
      simp only [spread, Nat.zero_add, split, List.cons_append, List.head?_cons,
        Option.mem_some_iff] at isNext
      rw [split, ← isNext]
      exact List.mem_cons_self

/-- Tokens that are delivered are printed. -/
theorem Matched.printed {text rest : List Char} {token : Token}
    (matched : Matched text token rest) : token.Printed := by
  rcases matched.classified with
    ⟨isWord, ⟨_, spelled⟩ | ⟨isName, free⟩⟩ | ⟨isNumeral, isNumber⟩ | ⟨_, spelled⟩
  · exact .inl spelled
  · exact .inr (.inl ⟨isName, isWord, Token.Kind.ofReserved?_eq_none_iff.mpr free⟩)
  · exact .inr (.inr ⟨isNumber, isNumeral⟩)
  · exact .inl spelled

/-- What is delivered are printed tokens, and at last the end of the input. -/
theorem Delivers.printed {read text : List Char} {items : List Item}
    (delivers : Delivers read text items) {token : Token} (member : .ok token ∈ items) :
    token.Printed ∨ ∃ position, token = .ending position := by
  induction delivers with
  | ending _ =>
    rw [List.mem_singleton] at member
    exact .inr ⟨_, Except.ok.inj member⟩
  | fault _ _ => exact absurd (List.mem_singleton.mp member) (by simp)
  | token matched _ _ _ inductionHypothesis =>
    rcases List.mem_cons.mp member with same | later
    · exact .inl (Except.ok.inj same ▸ matched.printed)
    · exact inductionHypothesis later

/-- A printed token is known by its lexeme. -/
theorem Token.Printed.content_eq {token : Token} (printed : token.Printed) :
    token.content = (token.lexeme.kind, String.ofList token.lexeme.characters) := by
  rw [printed.characters, String.ofList_toList]
  rfl

/-- Printed tokens with the same lexemes have the same texts. -/
theorem map_content_congr {tokens others : List Token}
    (printed : ∀ token ∈ tokens, token.Printed) (alsoPrinted : ∀ token ∈ others, token.Printed)
    (same : others.map Token.lexeme = tokens.map Token.lexeme) :
    others.map Token.content = tokens.map Token.content := by
  have byLexeme {tokens : List Token} (printed : ∀ token ∈ tokens, token.Printed) :
      tokens.map Token.content = (tokens.map Token.lexeme).map fun lexeme =>
        (lexeme.kind, String.ofList lexeme.characters) := by
    rw [List.map_map]
    exact List.map_congr_left fun token member => (printed token member).content_eq
  rw [byLexeme printed, byLexeme alsoPrinted, same]

namespace Layout

variable {tokens : List Token}

/-- Reading a layout delivers its tokens and the end of the input. -/
theorem items_source (printed : ∀ token ∈ tokens, token.Printed)
    (layout : Layout tokens.length) :
    ∃ (read : List Token) (position : Position),
      Source.items (layout.source tokens) = (read ++ [Token.ending position]).map Except.ok ∧
      read.map Token.content = tokens.map Token.content := by
  have lexes : Lexes (layout.source tokens).toList (tokens.map Token.lexeme) := by
    rw [source, String.toList_ofList]
    exact layout.lexes printed
  obtain ⟨read, last, delivered, lexemes, visible, ends⟩ := items_of_lexes lexes
  have delivers := items_delivers (layout.source tokens)
  rw [delivered] at delivers
  have alsoPrinted : ∀ token ∈ read, token.Printed := by
    intro token member
    rcases delivers.printed (List.mem_map_of_mem (List.mem_append_left _ member)) with
      isPrinted | ⟨_, rfl⟩
    · exact isPrinted
    · exact absurd rfl (visible _ member)
  rcases delivers.printed (List.mem_map_of_mem (List.mem_append_right read List.mem_cons_self)) with
    isPrinted | ⟨position, rfl⟩
  · exact absurd ends isPrinted.proper.visible
  · exact ⟨read, position, delivered, map_content_congr printed alsoPrinted lexemes⟩

/-- Reading undoes a layout: it gives the kinds and the texts of the tokens that were laid out,
and behind them the end of the input. So two layouts of the same tokens are parsed with the same
result and the same productions, up to positions. -/
theorem read_back (printed : ∀ token ∈ tokens, token.Printed)
    (layout other : Layout tokens.length) :
    (∃ (read : List Token) (position : Position),
      Source.tokens (layout.source tokens) = .ok (read ++ [.ending position]) ∧
      read.map Token.content = tokens.map Token.content) ∧
    (Parse.source (layout.source tokens)).1.mapError Fault.cause =
      (Parse.source (other.source tokens)).1.mapError Fault.cause ∧
    (Parse.source (layout.source tokens)).2.reductions =
      (Parse.source (other.source tokens)).2.reductions := by
  obtain ⟨read, position, delivered, same⟩ := layout.items_source printed
  obtain ⟨again, place, alsoDelivered, alsoSame⟩ := other.items_source printed
  refine ⟨⟨read, position, Source.tokens_of_items delivered, same⟩, ?_⟩
  have parsed : Parse.source (layout.source tokens) = Parse.tokens (read ++ [.ending position]) :=
    congrArg Parse.items delivered
  have alsoParsed : Parse.source (other.source tokens) = Parse.tokens (again ++ [.ending place]) :=
    congrArg Parse.items alsoDelivered
  rw [parsed, alsoParsed]
  refine Parse.tokens_by_content ?_
  rw [List.map_append, List.map_append, same, alsoSame]
  rfl

/-- A program on one line, and over several lines with wide spaces. -/
theorem read_back_lines :
    let tokens : List Token := [⟨.startWord, "Start", {}⟩, ⟨.identifier, "x", {}⟩,
      ⟨.assignment, "=", {}⟩, ⟨.number, "1", {}⟩, ⟨.endWord, "End", {}⟩]
    let line : String := "Start x = 1 End"
    let lines : String := " Start\u3000\nx\u3000\n=\u3000\n1\u3000\nEnd"
    (∀ token ∈ tokens, token.Printed) ∧
    (∃ (read : List Token) (position : Position),
      Source.tokens lines = .ok (read ++ [.ending position]) ∧
      read.map Token.content = tokens.map Token.content) ∧
    (Parse.source lines).1.mapError Fault.cause = (Parse.source line).1.mapError Fault.cause := by
  intro tokens line lines
  have printed : ∀ token ∈ tokens, token.Printed := by decide
  have spaced : (uniform [] [' '] [] (by decide) (by decide) : Layout 5).source tokens = line := by
    decide
  have broken : (uniform [' '] ['\u3000', '\n'] [] (by decide) (by decide) : Layout 5).source
      tokens = lines := by decide
  obtain ⟨read, alike, _⟩ := read_back printed
    (uniform [' '] ['\u3000', '\n'] [] (by decide) (by decide))
    (uniform [] [' '] [] (by decide) (by decide))
  rw [broken] at read alike
  rw [spaced] at alike
  exact ⟨printed, read, alike⟩

end Layout

end StartEnd
