import StartEnd.Proofs.Lexing.Delivery
import StartEnd.Proofs.Reading.Mark

/-!
# Texts and their lexemes

A text of lexemes is made of the characters of its lexemes and of white space between
them. Each lexeme ends where it stands: a word or a number is not followed by a character
that continues it, and a sign is not followed by one that makes a longer sign. Reading
such a text delivers exactly its lexemes.
-/

namespace StartEnd

namespace Lexeme

/-- The characters of a lexeme. -/
def characters (lexeme : Lexeme) : List Char :=
  if lexeme.kind.isOpen then lexeme.text.toList else lexeme.kind.characters

/-- A lexeme that can be read. -/
inductive Proper : Lexeme → Prop where
  | name {text : String} (isName : IsName text) : Proper ⟨.identifier, text⟩
  | numeral {text : String} (isNumeral : IsNumeral text) : Proper ⟨.number, text⟩
  | reserved {kind : Token.Kind} (isReserved : kind ∈ Token.Kind.reserved) : Proper ⟨kind, ""⟩
  | sign {kind : Token.Kind} (isSign : kind ∈ signs) : Proper ⟨kind, ""⟩

/-- A lexeme that ends where the given text begins. -/
def Ends (lexeme : Lexeme) (rest : List Char) : Prop :=
  if lexeme.kind ∈ signs then
    lexeme.kind ∈ Pattern.extendable → ∀ next ∈ rest.head?, next ∉ ['=', '+', '-', '*']
  else ∀ next ∈ rest.head?, isWordPart next = false

/-- A word that ends is the longest match. -/
theorem longest?_of_word {word rest : List Char} (isWord : IsWord word)
    (ends : ∀ next ∈ rest.head?, isWordPart next = false) :
    Pattern.longest? Pattern.all (word ++ rest) = some (.word, word) := by
  obtain ⟨⟨first, isFirst, starts⟩, continues⟩ := isWord
  obtain ⟨others, rfl⟩ : ∃ others, word = first :: others :=
    ⟨word.tail, (List.cons_head?_tail isFirst).symm⟩
  rw [List.tail_cons] at continues
  have stops : rest.takeWhile isWordPart = [] := by
    rcases rest with _ | ⟨next, rest⟩
    · rfl
    · exact List.takeWhile_cons_of_neg (by simp [ends next rfl])
  have taken : Pattern.word.taken (first :: others ++ rest) = first :: others := by
    simp [Pattern.taken, starts, List.takeWhile_append_of_pos continues, stops]
  rw [List.cons_append] at taken ⊢
  rw [Pattern.longest?_of_class .word (by decide) starts, taken]

/-- A number that ends is the longest match. -/
theorem longest?_of_digits {digits rest : List Char} (present : digits ≠ [])
    (isDigits : ∀ character ∈ digits, character.isDigit = true)
    (ends : ∀ next ∈ rest.head?, isWordPart next = false) :
    Pattern.longest? Pattern.all (digits ++ rest) = some (.digits, digits) := by
  have stops : rest.takeWhile Char.isDigit = [] := by
    rcases rest with _ | ⟨next, rest⟩
    · rfl
    · apply List.takeWhile_cons_of_neg
      intro digit
      exact absurd (isWordPart_of_isDigit digit) (by simp [ends next rfl])
  have taken : Pattern.digits.taken (digits ++ rest) = digits := by
    simp [Pattern.taken, List.takeWhile_append_of_pos isDigits, stops]
  obtain ⟨first, others, rfl⟩ := List.exists_cons_of_ne_nil present
  rw [List.cons_append] at taken ⊢
  rw [Pattern.longest?_of_class .digits (by decide) (isDigits first (by simp)), taken]

/-- Reserved words are words, and they are found as reserved. -/
theorem characters_of_reserved : ∀ kind ∈ Token.Kind.reserved, IsWord kind.characters ∧
    Token.Kind.ofReserved? (String.ofList kind.characters) = some kind := by
  decide

/-- A lexeme that ends is the longest match, and it makes a token of its kind. -/
theorem Proper.longest {lexeme : Lexeme} (proper : lexeme.Proper) {rest : List Char}
    (ends : lexeme.Ends rest) :
    ∃ pattern, Pattern.longest? Pattern.all (lexeme.characters ++ rest) =
        some (pattern, lexeme.characters) ∧
      pattern.kind? lexeme.characters = some lexeme.kind := by
  cases proper with
  | @name text isName =>
    refine ⟨.word, longest?_of_word isName.1 ends, ?_⟩
    have whole : String.ofList (characters ⟨.identifier, text⟩) = text := String.ofList_toList
    simp [Pattern.kind?, whole, isName.2]
  | @numeral text isNumeral =>
    exact ⟨.digits, longest?_of_digits isNumeral.1 isNumeral.2 ends, rfl⟩
  | @reserved kind isReserved =>
    have apart : ∀ kind ∈ Token.Kind.reserved, kind.isOpen = false ∧ kind ∉ signs := by decide
    obtain ⟨closed, noSign⟩ := apart kind isReserved
    obtain ⟨isWord, found⟩ := characters_of_reserved kind isReserved
    have spelled : characters ⟨kind, ""⟩ = kind.characters := by simp [characters, closed]
    have stops : ∀ next ∈ rest.head?, isWordPart next = false := by
      simpa [Ends, noSign] using ends
    rw [spelled]
    refine ⟨.word, longest?_of_word isWord stops, ?_⟩
    simp [Pattern.kind?, found]
  | @sign kind isSign =>
    have apart : ∀ kind ∈ signs, kind.isOpen = false := by decide
    have spelled : characters ⟨kind, ""⟩ = kind.characters := by
      simp [characters, apart kind isSign]
    have stops : kind ∈ Pattern.extendable → ∀ next ∈ rest.head?, next ∉ ['=', '+', '-', '*'] := by
      simpa [Ends, isSign] using ends
    rw [spelled]
    exact ⟨.sign kind, Pattern.longest?_of_sign isSign stops, rfl⟩

/-- A lexeme is not empty. -/
theorem Proper.characters_ne_nil {lexeme : Lexeme} (proper : lexeme.Proper) :
    lexeme.characters ≠ [] := by
  have ends : lexeme.Ends [] := by
    unfold Ends
    split <;> simp
  obtain ⟨pattern, best, _⟩ := proper.longest ends
  exact (Pattern.longest?_eq_some best).2.2

/-- The first character of a lexeme is not white space. -/
theorem Proper.visible_append {lexeme : Lexeme} (proper : lexeme.Proper) {rest : List Char}
    (ends : lexeme.Ends rest) :
    visible (lexeme.characters ++ rest) = lexeme.characters ++ rest := by
  obtain ⟨pattern, best, isKind⟩ := proper.longest ends
  obtain ⟨first, others, split⟩ := List.exists_cons_of_ne_nil proper.characters_ne_nil
  rw [split, List.cons_append] at best ⊢
  apply List.dropWhile_cons_of_neg
  intro blank
  have blanks : Pattern.longest? Pattern.all (first :: (others ++ rest)) = some (.blanks, _) :=
    Pattern.longest?_of_class .blanks (by decide) blank
  rw [best] at blanks
  obtain ⟨rfl, _⟩ := Prod.mk.inj (Option.some.inj blanks)
  exact absurd isKind (by simp [Pattern.kind?])

/-- A token with the characters and the kind of a lexeme has that lexeme. -/
theorem Proper.lexeme_eq {lexeme : Lexeme} (proper : lexeme.Proper) {token : Token}
    (kind : token.kind = lexeme.kind) (value : token.value.toList = lexeme.characters) :
    token.lexeme = lexeme := by
  cases proper with
  | @name text isName =>
    have same : token.value = text := String.toList_inj.mp value
    simp [Token.lexeme, kind, same, Token.Kind.isOpen]
  | @numeral text isNumeral =>
    have same : token.value = text := String.toList_inj.mp value
    simp [Token.lexeme, kind, same, Token.Kind.isOpen]
  | @reserved kind isReserved =>
    have apart : ∀ kind ∈ Token.Kind.reserved, kind.isOpen = false := by decide
    simp_all [Token.lexeme]
  | @sign kind isSign =>
    have apart : ∀ kind ∈ signs, kind.isOpen = false := by decide
    simp_all [Token.lexeme]

end Lexeme

/-- Texts made of lexemes and white space. -/
inductive Lexes : List Char → List Lexeme → Prop where
  | nil : Lexes [] []
  | blank {character : Char} {text : List Char} {lexemes : List Lexeme}
      (isBlank : Text.isBlank character = true) (rest : Lexes text lexemes) :
    Lexes (character :: text) lexemes
  | lexeme {lexeme : Lexeme} {text : List Char} {lexemes : List Lexeme}
      (proper : lexeme.Proper) (ends : lexeme.Ends text) (rest : Lexes text lexemes) :
    Lexes (lexeme.characters ++ text) (lexeme :: lexemes)

/-- No lexeme is of the kind of the end of the input. -/
theorem Lexeme.Proper.visible {lexeme : Lexeme} (proper : lexeme.Proper) :
    lexeme.kind ≠ .endOfInput := by
  have listed : .endOfInput ∉ Token.Kind.reserved ++ signs := by decide
  cases proper with
  | name isName => simp
  | numeral isNumeral => simp
  | reserved isReserved =>
    rintro rfl
    exact listed (List.mem_append_left _ isReserved)
  | sign isSign =>
    rintro rfl
    exact listed (List.mem_append_right _ isSign)

/-- Every lexeme of a text can be read. -/
theorem Lexes.proper {text : List Char} {lexemes : List Lexeme} (lexes : Lexes text lexemes) :
    ∀ lexeme ∈ lexemes, lexeme.Proper := by
  induction lexes with
  | nil => simp
  | blank isBlank rest inductionHypothesis => exact inductionHypothesis
  | lexeme proper ends rest inductionHypothesis =>
    exact List.forall_mem_cons.mpr ⟨proper, inductionHypothesis⟩

/-- Behind the white space stands the first lexeme, if there is one. -/
theorem Lexes.visible_cases {text : List Char} {lexemes : List Lexeme}
    (lexes : Lexes text lexemes) :
    (visible text = [] ∧ lexemes = []) ∨
    ∃ first others rest, lexemes = first :: others ∧ visible text = first.characters ++ rest ∧
      first.Proper ∧ first.Ends rest ∧ Lexes rest others := by
  induction lexes with
  | nil => exact .inl ⟨rfl, rfl⟩
  | @blank character text lexemes isBlank rest inductionHypothesis =>
    have skipped : visible (character :: text) = visible text :=
      List.dropWhile_cons_of_pos isBlank
    rw [skipped]
    exact inductionHypothesis
  | @lexeme lexeme text lexemes proper ends rest _ =>
    exact .inr ⟨lexeme, lexemes, text, rfl, proper.visible_append ends, proper, ends, rest⟩

/-- Reading a text of lexemes delivers tokens with these lexemes, and then the end of the
input. The induction is over what is delivered. -/
theorem Lexes.delivered {text : List Char} {lexemes : List Lexeme} (lexes : Lexes text lexemes)
    {read : List Char} {items : List Item} (delivers : Delivers read text items) :
    ∃ (tokens : List Token) (last : Token), items = tokens.map Except.ok ++ [.ok last] ∧
      tokens.map Token.lexeme = lexemes ∧ last.kind = .endOfInput := by
  induction delivers generalizing lexemes with
  | ending blank =>
    rcases lexes.visible_cases with ⟨_, rfl⟩ | ⟨first, others, rest, _, split, proper, stops, _⟩
    · exact ⟨[], _, rfl, rfl, rfl⟩
    · have nothing : first.characters ++ rest = [] := split.symm.trans blank
      exact absurd (List.append_eq_nil_iff.mp nothing).1 proper.characters_ne_nil
  | fault front unknown =>
    rcases lexes.visible_cases with ⟨empty, _⟩ | ⟨first, others, rest, _, split, proper, stops, _⟩
    · exact absurd (front.symm.trans empty) (by simp)
    · obtain ⟨pattern, best, _⟩ := proper.longest stops
      rw [← front, split, best] at unknown
      exact absurd unknown (by simp)
  | @token _ text rest token items matched _ _ delivered inductionHypothesis =>
    rcases lexes.visible_cases with
      ⟨empty, _⟩ | ⟨first, others, behind, rfl, split, proper, stops, further⟩
    · have nothing : token.value.toList ++ rest = [] := matched.split.symm.trans empty
      exact absurd (List.append_eq_nil_iff.mp nothing).1 matched.ne_nil
    · obtain ⟨pattern, best, isKind⟩ := proper.longest stops
      obtain ⟨same, found, sameKind⟩ := matched.longest
      rw [split, best] at found
      obtain ⟨rfl, value⟩ := Prod.mk.inj (Option.some.inj found)
      have kind : token.kind = first.kind := by
        rw [← value, isKind] at sameKind
        exact (Option.some.inj sameKind).symm
      have rests : rest = behind := by
        have whole := matched.split.symm.trans split
        rw [value] at whole
        exact List.append_cancel_left whole
      subst rests
      obtain ⟨tokens, last, rfl, rfl, ends⟩ := inductionHypothesis further
      refine ⟨token :: tokens, last, rfl, ?_, ends⟩
      rw [List.map_cons, proper.lexeme_eq kind value.symm]

/-- A source of lexemes is read as tokens with these lexemes. -/
theorem items_of_lexes {source : String} {lexemes : List Lexeme}
    (lexes : Lexes source.toList lexemes) :
    ∃ (tokens : List Token) (last : Token),
      Source.items source = (tokens ++ [last]).map Except.ok ∧
      tokens.map Token.lexeme = lexemes ∧ (∀ token ∈ tokens, token.kind ≠ .endOfInput) ∧
      last.kind = .endOfInput := by
  obtain ⟨tokens, last, split, rfl, ends⟩ := lexes.delivered (items_delivers source)
  refine ⟨tokens, last, ?_, rfl, ?_, ends⟩
  · rw [split, List.map_append]
    rfl
  · intro token member
    exact (lexes.proper token.lexeme (List.mem_map_of_mem member)).visible

end StartEnd
