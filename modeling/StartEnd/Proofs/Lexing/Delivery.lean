import Mathlib.Data.List.TakeWhile
import StartEnd.Proofs.Lexing.Match
import StartEnd.Proofs.Lexing.Position
import StartEnd.Token.Cursor

/-!
# What reading a text delivers

Reading skips white space and hands out the longest match, again and again. What it
delivers is described without cursors: tokens that are longest matches, and at last an
end-of-input token or a fault, each at its position behind what was read before. Every
token of a name has the text of a name that is not reserved, and every token of a number
has digits only.
-/

namespace StartEnd

/-- Characters that make a word. -/
def IsWord (characters : List Char) : Prop :=
  (∃ first ∈ characters.head?, isWordStart first = true) ∧
    ∀ character ∈ characters.tail, isWordPart character = true

instance (characters : List Char) : Decidable (IsWord characters) :=
  decidable_of_iff (characters.head?.any isWordStart ∧ characters.tail.all isWordPart) (by
    simp [IsWord, Option.any_eq_true])

/-- A word that is not reserved. -/
def IsName (text : String) : Prop :=
  IsWord text.toList ∧ Token.Kind.ofReserved? text = none

instance (text : String) : Decidable (IsName text) := inferInstanceAs (Decidable (_ ∧ _))

/-- Digits, at least one of them. -/
def IsNumeral (text : String) : Prop :=
  text.toList ≠ [] ∧ ∀ character ∈ text.toList, character.isDigit = true

instance (text : String) : Decidable (IsNumeral text) :=
  decidable_of_iff (text.toList.isEmpty = false ∧ text.toList.all Char.isDigit) (by
    simp [IsNumeral])

/-- A text belongs to a class of tokens as a whole, and this is the kind that it makes. A
word is of its reserved kind, or a name if it is not reserved. -/
def Classified (text : String) (kind : Token.Kind) : Prop :=
  IsWord text.toList ∧ (kind ∈ Token.Kind.reserved ∧ kind.lexeme? = some text ∨
      kind = .identifier ∧ ∀ word ∈ Token.Kind.reserved, word.lexeme? ≠ some text) ∨
    IsNumeral text ∧ kind = .number ∨
    kind ∈ signs ∧ kind.lexeme? = some text

/-- The white space at the front of a text. -/
def blank (text : List Char) : List Char := text.takeWhile Text.isBlank

/-- A text without the white space at its front. -/
def visible (text : List Char) : List Char := text.dropWhile Text.isBlank

/-- A text is its white space and what stands behind that. -/
theorem blank_append_visible (text : List Char) : blank text ++ visible text = text :=
  List.takeWhile_append_dropWhile

/-- White space at the front is white space. -/
theorem isBlank_of_mem_blank {text : List Char} :
    ∀ character ∈ blank text, Text.isBlank character = true :=
  fun _ member => List.mem_takeWhile_imp member

/-- A text with nothing behind its white space is white space. -/
theorem blank_eq_self {text : List Char} (nothing : visible text = []) : blank text = text := by
  have whole := blank_append_visible text
  rwa [nothing, List.append_nil] at whole

/-- A token that is the longest match at the front of a text, and what stands behind it. -/
structure Matched (text : List Char) (token : Token) (rest : List Char) : Prop where
  split : text = token.value.toList ++ rest
  longest : ∃ pattern, Pattern.longest? Pattern.all text = some (pattern, token.value.toList) ∧
    pattern.kind? token.value.toList = some token.kind

/-- The items that reading a text delivers behind what has been read. -/
inductive Delivers : List Char → List Char → List Item → Prop where
  | ending {read text : List Char} (nothing : visible text = []) :
    Delivers read text [.ok (Token.ending (.behind (read ++ text)))]
  | fault {read text others : List Char} {first : Char} (split : visible text = first :: others)
      (unknown : Pattern.longest? Pattern.all (first :: others) = none) :
    Delivers read text [.error ⟨.unrecognisedCharacter first, .behind (read ++ blank text)⟩]
  | token {read text rest : List Char} {token : Token} {items : List Item}
      (matched : Matched (visible text) token rest)
      (start : token.span.start = .behind (read ++ blank text))
      (stop : token.span.stop = .behind (read ++ blank text ++ token.value.toList))
      (others : Delivers (read ++ blank text ++ token.value.toList) rest items) :
    Delivers read text (.ok token :: items)

/-- Behind white space there is no more of it. -/
theorem visible_visible (text : List Char) : visible (visible text) = visible text :=
  List.dropWhile_idempotent _ text

/-- A longest match is not empty. -/
theorem Matched.ne_nil {text rest : List Char} {token : Token}
    (matched : Matched text token rest) : token.value.toList ≠ [] := by
  obtain ⟨pattern, best, _⟩ := matched.longest
  exact (Pattern.longest?_eq_some best).2.2

/-- A text that begins with a longest match behind its white space. -/
theorem Matched.whole {text rest : List Char} {token : Token}
    (matched : Matched (visible text) token rest) (read : List Char) :
    read ++ text = read ++ blank text ++ token.value.toList ++ rest := by
  have split : text = blank text ++ (token.value.toList ++ rest) := by
    rw [← matched.split, blank_append_visible]
  rw [List.append_assoc, List.append_assoc, ← split]

/-- Behind a longest match there is less text. -/
theorem Matched.length_lt {text rest : List Char} {token : Token}
    (matched : Matched text token rest) : rest.length < text.length := by
  have positive : 0 < token.value.toList.length := List.length_pos_iff.mpr matched.ne_nil
  rw [matched.split, List.length_append]
  omega

namespace Cursor

/-- A cursor that has read a text, with the other given text left to read. -/
structure Reading (cursor : Cursor) (read text : List Char) : Prop where
  rest : cursor.rest = text
  overrun : cursor.overrun = 0
  unfinished : cursor.finished = false
  position : cursor.position = .behind read

/-- A cursor moves to the position behind the text. -/
theorem position_advance (cursor : Cursor) (text : List Char) :
    (cursor.advance text).position = cursor.position.after text := by
  have bytes : (cursor.offset + byteLength text).toUInt32 =
      cursor.offset.toUInt32 + (byteLength text).toUInt32 := UInt32.ofNat_add _ _
  simp only [Cursor.advance, position, Position.after, bytes]

/-- Moving over the front of the text leaves what stands behind it. -/
theorem Reading.advance {cursor : Cursor} {read front rest : List Char}
    (reading : cursor.Reading read (front ++ rest)) :
    (cursor.advance front).Reading (read ++ front) rest := by
  have dropped : dropBytes cursor.rest (cursor.overrun + byteLength front) = (rest, 0) := by
    rw [reading.rest, reading.overrun, Nat.zero_add, dropBytes_append]
  refine ⟨?_, ?_, reading.unfinished, ?_⟩
  · simp [Cursor.advance, dropped]
  · simp [Cursor.advance, dropped]
  · rw [position_advance, reading.position, Position.after_behind]

/-- An item that a look at a text without white space in front hands out. -/
inductive Hands : List Char → List Char → Item → Cursor → Prop where
  | ending {read : List Char} {last : Cursor} (finished : last.finished = true) :
    Hands read [] (.ok (Token.ending (.behind read))) last
  | fault {read others : List Char} {first : Char} {last : Cursor}
      (unknown : Pattern.longest? Pattern.all (first :: others) = none)
      (finished : last.finished = true) :
    Hands read (first :: others) (.error ⟨.unrecognisedCharacter first, .behind read⟩) last
  | token {read text rest : List Char} {token : Token} {following : Cursor}
      (matched : Matched text token rest) (start : token.span.start = .behind read)
      (stop : token.span.stop = .behind (read ++ token.value.toList))
      (reading : following.Reading (read ++ token.value.toList) rest) :
    Hands read text (.ok token) following

/-- Behind an item a cursor is finished, or it has less left to read. -/
theorem Hands.following {read text : List Char} {item : Item} {following : Cursor}
    (hands : Hands read text item following) :
    following.finished = true ∨ ∃ further rest, following.Reading further rest ∧
      rest.length < text.length := by
  cases hands with
  | ending finished => exact .inl finished
  | fault _ finished => exact .inl finished
  | token matched _ _ reading => exact .inr ⟨_, _, reading, matched.length_lt⟩

/-- What the longest match takes stands at the front of the text. -/
theorem exists_append_of_longest {text taken : List Char} {pattern : Pattern}
    (best : Pattern.longest? Pattern.all text = some (pattern, taken)) :
    ∃ rest, text = taken ++ rest := by
  obtain ⟨_, rfl, _⟩ := Pattern.longest?_eq_some best
  obtain ⟨rest, split⟩ := pattern.taken_isPrefix text
  exact ⟨rest, split.symm⟩

/-- A look at a text without white space in front hands out an item. -/
theorem look_of_visible {cursor : Cursor} {read text : List Char}
    (reading : cursor.Reading read text) (isVisible : visible text = text) :
    ∃ item following, cursor.look Pattern.all = .ok (.item item following) ∧
      Hands read text item following := by
  rcases text with _ | ⟨first, others⟩
  · have ran : cursor.look Pattern.all = .ok (.item (.ok (Token.ending (.behind read)))
        { cursor with finished := true }) := by
      simp [look, reading.unfinished, reading.rest, reading.position]
    exact ⟨_, _, ran, .ending rfl⟩
  · cases best : Pattern.longest? Pattern.all (first :: others) with
    | none =>
      have ran : cursor.look Pattern.all = .ok (.item
          (.error ⟨.unrecognisedCharacter first, .behind read⟩)
          { cursor with finished := true }) := by
        simp [look, reading.unfinished, reading.rest, reading.overrun, reading.position, best]
      exact ⟨_, _, ran, .fault best rfl⟩
    | some found =>
      obtain ⟨pattern, taken⟩ := found
      obtain ⟨rest, split⟩ := exists_append_of_longest best
      have notBlank : pattern ≠ .blanks := by
        rintro rfl
        obtain ⟨_, isTaken, present⟩ := Pattern.longest?_eq_some best
        have blank := Pattern.opens_of_taken (isTaken ▸ present)
        have dropped : (visible (first :: others)).length ≤ others.length := by
          rw [visible, List.dropWhile_cons_of_pos blank]
          exact (List.dropWhile_suffix _).length_le
        rw [isVisible, List.length_cons] at dropped
        omega
      obtain ⟨kind, isKind⟩ : ∃ kind, pattern.kind? taken = some kind := by
        cases pattern with
        | word => exact ⟨_, rfl⟩
        | digits => exact ⟨_, rfl⟩
        | blanks => exact absurd rfl notBlank
        | fixed lexeme kind => exact ⟨_, rfl⟩
      have behind : (cursor.advance taken).Reading (read ++ taken) rest := by
        rw [split] at reading
        exact reading.advance
      have matched : Matched (first :: others) ⟨kind, String.ofList taken, cursor.spanOf taken⟩
          rest := by
        refine ⟨?_, pattern, ?_, ?_⟩
        · simpa using split
        · simpa using best
        · simpa using isKind
      have stop : (cursor.spanOf taken).stop = .behind (read ++ taken) := by
        rw [← Position.after_behind, ← reading.position]
        rfl
      refine ⟨_, _, ?_, .token matched reading.position (by simpa using stop)
        (by simpa using behind)⟩
      simp [look, reading.unfinished, reading.rest, reading.overrun, best, isKind]

/-- A cursor hands out the item behind the white space. -/
theorem next_outcome {cursor : Cursor} {read text : List Char}
    (reading : cursor.Reading read text) :
    ∃ item following, cursor.nextBy Pattern.all = .ok (some item, following) ∧
      Hands (read ++ blank text) (visible text) item following := by
  by_cases front : visible text = text
  · have nothing : blank text = [] := by
      have whole := blank_append_visible text
      rwa [front, List.append_left_eq_self] at whole
    obtain ⟨item, following, ran, hands⟩ := look_of_visible reading front
    refine ⟨item, following, ?_, ?_⟩
    · simp [nextBy, ran, bind, Except.bind, pure, Except.pure]
    · rwa [front, nothing, List.append_nil]
  · obtain ⟨first, others, rfl, isBlank⟩ : ∃ first others, text = first :: others ∧
        Text.isBlank first = true := by
      rcases text with _ | ⟨first, others⟩
      · exact absurd rfl front
      · refine ⟨first, others, rfl, ?_⟩
        by_contra printed
        exact front (List.dropWhile_cons_of_neg printed)
    have best : Pattern.longest? Pattern.all (first :: others) =
        some (.blanks, blank (first :: others)) :=
      Pattern.longest?_of_class .blanks (by decide) isBlank
    have looked : cursor.look Pattern.all =
        .ok (.blank (cursor.advance (blank (first :: others)))) := by
      simp [look, reading.unfinished, reading.rest, reading.overrun, best, Pattern.kind?]
    have behind : (cursor.advance (blank (first :: others))).Reading
        (read ++ blank (first :: others)) (visible (first :: others)) := by
      apply Reading.advance
      rw [blank_append_visible]
      exact reading
    obtain ⟨item, following, ran, hands⟩ := look_of_visible behind (visible_visible _)
    refine ⟨item, following, ?_, hands⟩
    simp [nextBy, looked, ran, bind, Except.bind, pure, Except.pure]

/-- A finished cursor hands out nothing. -/
theorem drainWithin_finished {cursor : Cursor} (finished : cursor.finished = true)
    (count : Nat) : (cursor.drainWithin Pattern.all count).1 = [] := by
  cases count with
  | zero => rfl
  | succ count => simp [drainWithin, nextBy, look, finished, bind, Except.bind, pure, Except.pure]

/-- Reading delivers the items of the text. The induction is over the items that may still
be read, of which there are more than characters. -/
theorem drainWithin_delivers {cursor : Cursor} {read text : List Char}
    (reading : cursor.Reading read text) {count : Nat} (enough : text.length < count) :
    Delivers read text (cursor.drainWithin Pattern.all count).1 := by
  induction count generalizing cursor read text with
  | zero => exact absurd enough (Nat.not_lt_zero _)
  | succ count inductionHypothesis =>
    obtain ⟨item, following, ran, hands⟩ := next_outcome reading
    have unfolded : (cursor.drainWithin Pattern.all (count + 1)).1 =
        item :: (following.drainWithin Pattern.all count).1 := by
      simp [drainWithin, ran]
    rw [unfolded]
    generalize front : visible text = seen at hands
    cases hands with
    | ending finished =>
      rw [drainWithin_finished finished]
      rw [blank_eq_self front]
      exact .ending front
    | fault unknown finished =>
      rw [drainWithin_finished finished]
      exact .fault front unknown
    | token matched start stop behind =>
      refine .token (front ▸ matched) start stop (inductionHypothesis behind ?_)
      have shorter : (visible text).length ≤ text.length := (List.dropWhile_suffix _).length_le
      have less := matched.length_lt
      rw [front] at shorter
      omega

end Cursor

/-- Reading a source delivers the items of its text. -/
theorem items_delivers (source : String) : Delivers [] source.toList (Source.items source) := by
  have reading : (Cursor.start source).Reading [] source.toList := ⟨rfl, rfl, rfl, rfl⟩
  exact Cursor.drainWithin_delivers reading (Nat.lt_succ_self _)

/-- A token as reading hands it out: with the text of its kind. -/
structure Token.Lexical (token : Token) : Prop where
  visible : token.kind ≠ .endOfInput
  name : token.kind = .identifier → IsName token.value
  numeral : token.kind = .number → IsNumeral token.value

/-- What a word takes is one. -/
theorem isWord_taken {text : List Char} (present : Pattern.word.taken text ≠ []) :
    IsWord (Pattern.word.taken text) := by
  rcases text with _ | ⟨first, others⟩
  · exact absurd rfl present
  · have starts : isWordStart first = true := Pattern.opens_of_taken present
    have spelled : Pattern.word.taken (first :: others) =
        first :: others.takeWhile isWordPart := by
      simp [Pattern.taken, starts]
    rw [spelled]
    exact ⟨⟨first, rfl, starts⟩, fun character member => List.mem_takeWhile_imp member⟩

/-- A word is reserved as a whole, or a name. -/
theorem kind_of_word (text : String) :
    (Token.Kind.ofReserved? text).getD .identifier ∈ Token.Kind.reserved ∧
        ((Token.Kind.ofReserved? text).getD .identifier).lexeme? = some text ∨
      (Token.Kind.ofReserved? text).getD .identifier = .identifier ∧
        ∀ word ∈ Token.Kind.reserved, word.lexeme? ≠ some text := by
  cases found : Token.Kind.ofReserved? text with
  | none => exact .inr ⟨rfl, Token.Kind.ofReserved?_eq_none_iff.mp found⟩
  | some kind => exact .inl (Token.Kind.lexeme?_of_ofReserved? found)

/-- A longest match belongs to the class of its kind. -/
theorem Matched.classified {text rest : List Char} {token : Token}
    (matched : Matched text token rest) : Classified token.value token.kind := by
  obtain ⟨pattern, best, isKind⟩ := matched.longest
  obtain ⟨listed, taken, present⟩ := Pattern.longest?_eq_some best
  rcases Pattern.mem_all_iff.mp listed with isClass | ⟨kind, isSign, rfl⟩
  · simp only [Pattern.classes, List.mem_cons, List.not_mem_nil, or_false] at isClass
    rcases isClass with rfl | rfl | rfl
    · have kinds : (Token.Kind.ofReserved? token.value).getD .identifier = token.kind := by
        simpa [Pattern.kind?] using isKind
      refine .inl ⟨?_, kinds ▸ kind_of_word token.value⟩
      rw [taken] at present ⊢
      exact isWord_taken present
    · have isNumber : token.kind = .number := by simpa [Pattern.kind?] using isKind.symm
      refine .inr (.inl ⟨⟨present, fun character member => ?_⟩, isNumber⟩)
      rw [taken] at member
      exact List.mem_takeWhile_imp member
    · exact absurd isKind (by simp [Pattern.kind?])
  · obtain rfl : kind = token.kind := Option.some.inj isKind
    refine .inr (.inr ⟨isSign, ?_⟩)
    have spelled : ∀ kind ∈ signs, kind.lexeme? = some (String.ofList kind.characters) := by
      decide
    have whole : token.value.toList = token.kind.characters :=
      taken.trans (Pattern.taken_sign (taken ▸ present)).1
    rw [spelled _ isSign, ← whole, String.ofList_toList]

/-- A longest match is a token with the text of its kind. -/
theorem Matched.lexical {text rest : List Char} {token : Token}
    (matched : Matched text token rest) : token.Lexical := by
  have apart : ∀ kind ∈ Token.Kind.reserved ++ signs,
      kind ≠ .endOfInput ∧ kind ≠ .identifier ∧ kind ≠ .number := by
    decide
  rcases matched.classified with
    ⟨isWord, ⟨isReserved, _⟩ | ⟨isName, free⟩⟩ | ⟨isNumeral, isNumber⟩ | ⟨isSign, _⟩
  · obtain ⟨seen, noName, noNumber⟩ := apart _ (List.mem_append_left _ isReserved)
    exact ⟨seen, fun isName => absurd isName noName, fun isNumber => absurd isNumber noNumber⟩
  · refine ⟨by simp [isName], fun _ => ⟨isWord, ?_⟩, by simp [isName]⟩
    exact Token.Kind.ofReserved?_eq_none_iff.mpr free
  · exact ⟨by simp [isNumber], by simp [isNumber], fun _ => isNumeral⟩
  · obtain ⟨seen, noName, noNumber⟩ := apart _ (List.mem_append_right _ isSign)
    exact ⟨seen, fun isName => absurd isName noName, fun isNumber => absurd isNumber noNumber⟩

/-- What is delivered are tokens, and at last an end-of-input token or a fault. -/
theorem Delivers.shape {read text : List Char} {items : List Item}
    (delivers : Delivers read text items) :
    ∃ (tokens : List Token) (last : Item), items = tokens.map Except.ok ++ [last] ∧
      (∀ token ∈ tokens, token.Lexical) ∧
      ∀ token, last = .ok token → token.kind = .endOfInput := by
  induction delivers with
  | @ending read text nothing =>
    refine ⟨[], .ok (Token.ending (.behind (read ++ text))), rfl, by simp, ?_⟩
    rintro other same
    rw [← Except.ok.inj same]
    rfl
  | fault split unknown => exact ⟨[], .error _, rfl, by simp, by simp⟩
  | @token _ _ rest token items matched start stop others inductionHypothesis =>
    obtain ⟨tokens, last, rfl, lexical, ends⟩ := inductionHypothesis
    refine ⟨token :: tokens, last, rfl, ?_, ends⟩
    intro other member
    rcases List.mem_cons.mp member with rfl | later
    · exact matched.lexical
    · exact lexical other later

namespace Source

/-- The tokens of a source are its items if all of these are tokens. -/
theorem tokens_of_items {source : String} {tokens : List Token}
    (delivered : Source.items source = tokens.map Except.ok) :
    Source.tokens source = .ok tokens := by
  rw [Source.tokens, delivered]
  clear delivered
  induction tokens with
  | nil => rfl
  | cons first rest inductionHypothesis =>
    rw [List.map_cons, List.mapM_cons, inductionHypothesis]
    rfl

/-- A source has no tokens if its last item is a fault. -/
theorem tokens_of_fault {source : String} {tokens : List Token} {fault : Fault}
    (delivered : Source.items source = tokens.map Except.ok ++ [.error fault]) :
    Source.tokens source = .error fault := by
  rw [Source.tokens, delivered]
  clear delivered
  induction tokens with
  | nil => rfl
  | cons first rest inductionHypothesis =>
    rw [List.map_cons, List.cons_append, List.mapM_cons, inductionHypothesis]
    rfl

/-- A source is read as tokens up to the end of the input, or up to a fault. -/
theorem tokens_outcome (source : String) :
    ∃ tokens : List Token, (∀ token ∈ tokens, token.Lexical) ∧
      ((∃ last : Token, last.kind = .endOfInput ∧
          Source.items source = (tokens ++ [last]).map Except.ok ∧
          Source.tokens source = .ok (tokens ++ [last])) ∨
        ∃ fault, Source.items source = tokens.map Except.ok ++ [.error fault] ∧
          Source.tokens source = .error fault) := by
  obtain ⟨tokens, last, shape, lexical, ends⟩ := (items_delivers source).shape
  refine ⟨tokens, lexical, ?_⟩
  rcases last with fault | last
  · exact .inr ⟨fault, shape, tokens_of_fault shape⟩
  · have delivered : Source.items source = (tokens ++ [last]).map Except.ok := by
      rw [shape, List.map_append]
      rfl
    exact .inl ⟨last, ends last rfl, delivered, tokens_of_items delivered⟩

end Source

end StartEnd
