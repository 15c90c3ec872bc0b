import StartEnd.Proofs.Lexing.Delivery

/-!
# Maximal munch

A text belongs to a class if it is a word, a run of digits or a sign as a whole. Reading a
text takes the longest piece that belongs to a class, again and again, with white space
between the pieces. It comes to the end of the text exactly if every character is one of
the language, where an exclamation mark is one only in front of an equals sign; otherwise
it stops at the first character that is not.
-/

namespace StartEnd

/-- A token is the longest piece at the front of a text that belongs to any class. -/
structure Munch (token : Token) (rest : List Char) : Prop where
  classified : Classified token.value token.kind
  longest : ∀ (longer : String) (kind : Token.Kind),
    longer.toList <+: token.value.toList ++ rest → Classified longer kind →
    longer.toList.length ≤ token.value.toList.length

/-- A text is cut into tokens, each the longest piece there is, with white space around
them. -/
inductive Munches : List Char → List Token → Prop where
  | nil {gap : List Char} (isBlank : ∀ character ∈ gap, Text.isBlank character = true) :
    Munches gap []
  | cons {gap rest : List Char} {token : Token} {tokens : List Token}
      (isBlank : ∀ character ∈ gap, Text.isBlank character = true) (munch : Munch token rest)
      (others : Munches rest tokens) :
    Munches (gap ++ token.value.toList ++ rest) (token :: tokens)

/-- The characters that are signs by themselves. -/
def signCharacters : List Char :=
  ['\x7b', '\x7d', '(', ')', '=', '<', '>', ';', ',', '+', '-', '*', '/']

/-- A character of the language, given what follows it. -/
def Native (character : Char) (rest : List Char) : Prop :=
  character.isAlphanum = true ∨ character = '_' ∨ Text.isBlank character = true ∨
    character ∈ signCharacters ∨ character = '!' ∧ rest.head? = some '='

/-- All characters of a text are of the language, given what follows it. -/
def AllNative (text rest : List Char) : Prop :=
  ∀ front character back, text = front ++ character :: back → Native character (back ++ rest)

namespace Pattern

/-- No pattern takes more than the longest match. The induction is over the table: the best
match never gets shorter. -/
theorem length_taken_le {table : List Pattern} {pattern : Pattern} (listed : pattern ∈ table)
    (text : List Char) :
    (pattern.taken text).length ≤ (longest? table text).elim 0 fun best => best.2.length := by
  have general : ∀ (remaining : List Pattern) (start : Option (Pattern × List Char)),
      (start.elim 0 fun best => best.2.length) ≤
          ((remaining.foldl (better text) start).elim 0 fun best => best.2.length) ∧
        ∀ other ∈ remaining, (other.taken text).length ≤
          (remaining.foldl (better text) start).elim 0 fun best => best.2.length := by
    intro remaining
    induction remaining with
    | nil => exact fun start => ⟨Nat.le_refl _, by simp⟩
    | cons first rest inductionHypothesis =>
      intro start
      have improved : (start.elim 0 fun best => best.2.length) ≤
            ((better text start first).elim 0 fun best => best.2.length) ∧
          (first.taken text).length ≤
            (better text start first).elim 0 fun best => best.2.length := by
        dsimp only [better]
        split
        case isTrue longer => exact ⟨Nat.le_of_lt longer, Nat.le_refl _⟩
        case isFalse shorter => exact ⟨Nat.le_refl _, Nat.le_of_not_lt shorter⟩
      obtain ⟨kept, others⟩ := inductionHypothesis (better text start first)
      rw [List.foldl_cons]
      refine ⟨Nat.le_trans improved.1 kept, fun other member => ?_⟩
      rcases List.mem_cons.mp member with rfl | later
      · exact Nat.le_trans improved.2 kept
      · exact others other later
  exact (general table none).2 pattern listed

/-- Where a pattern takes something there is a longest match. -/
theorem longest?_ne_none {table : List Pattern} {pattern : Pattern} (listed : pattern ∈ table)
    {text : List Char} (present : pattern.taken text ≠ []) : longest? table text ≠ none := by
  intro nothing
  have bound := length_taken_le listed text
  rw [nothing] at bound
  exact present (List.length_eq_zero_iff.mp (Nat.le_zero.mp bound))

/-- The longest match is what is taken most. -/
theorem length_taken_le_of_longest {table : List Pattern} {text found : List Char}
    {best pattern : Pattern} (isBest : longest? table text = some (best, found))
    (listed : pattern ∈ table) : (pattern.taken text).length ≤ found.length := by
  have bound := length_taken_le listed text
  rwa [isBest] at bound

/-- A run at the front of a text is no longer than the longest one. -/
theorem length_le_takeWhile {inside : Char → Bool} {run text : List Char}
    (front : run <+: text) (all : ∀ character ∈ run, inside character = true) :
    run.length ≤ (text.takeWhile inside).length := by
  obtain ⟨rest, rfl⟩ := front
  rw [List.takeWhile_append_of_pos all, List.length_append]
  exact Nat.le_add_right _ _

/-- What belongs to a class as a whole is no longer than what some pattern takes. -/
theorem exists_length_le {text : List Char} {value : String} {kind : Token.Kind}
    (front : value.toList <+: text) (classified : Classified value kind) :
    ∃ pattern ∈ all, value.toList.length ≤ (pattern.taken text).length := by
  rcases classified with ⟨isWord, _⟩ | ⟨isNumeral, _⟩ | ⟨isSign, spelled⟩
  · obtain ⟨⟨first, begins, starts⟩, continued⟩ := isWord
    obtain ⟨others, split⟩ : ∃ others, value.toList = first :: others :=
      List.head?_eq_some_iff.mp begins
    rw [split] at front continued ⊢
    obtain ⟨rest, rfl⟩ := front
    have taken : word.taken (first :: others ++ rest) =
        first :: (others ++ rest).takeWhile isWordPart := by
      simp [Pattern.taken, starts]
    refine ⟨word, by decide, ?_⟩
    rw [taken, List.length_cons, List.length_cons]
    exact Nat.succ_le_succ (length_le_takeWhile (List.prefix_append _ _) continued)
  · exact ⟨digits, by decide, length_le_takeWhile front isNumeral.2⟩
  · refine ⟨sign kind, mem_all_iff.mpr (.inr ⟨kind, isSign, rfl⟩), ?_⟩
    rw [← Token.Kind.characters_of_lexeme? spelled] at front ⊢
    rw [taken_sign_of_front front]

end Pattern

/-- The longest match is the longest piece that belongs to any class. -/
theorem Matched.munch {text rest : List Char} {token : Token}
    (matched : Matched text token rest) : Munch token rest := by
  refine ⟨matched.classified, fun longer kind front classified => ?_⟩
  rw [← matched.split] at front
  obtain ⟨pattern, listed, bound⟩ := Pattern.exists_length_le front classified
  obtain ⟨best, isBest, _⟩ := matched.longest
  exact Nat.le_trans bound (Pattern.length_taken_le_of_longest isBest listed)

/-- Two texts in a row are of the language if both are. -/
theorem AllNative.append {left right rest : List Char} (early : AllNative left (right ++ rest))
    (late : AllNative right rest) : AllNative (left ++ right) rest := by
  intro front character back split
  rcases List.append_eq_append_iff.mp split with ⟨middle, rfl, inside⟩ | ⟨middle, inside, behind⟩
  · exact late middle character back inside
  · rcases middle with _ | ⟨first, middle⟩
    · exact late [] character back behind.symm
    · obtain ⟨rfl, rfl⟩ := List.cons.inj behind
      have native := early front character middle inside
      rwa [← List.append_assoc] at native

/-- One more character of the language may stand in front. -/
theorem AllNative.cons {character : Char} {text rest : List Char}
    (native : Native character (text ++ rest)) (others : AllNative text rest) :
    AllNative (character :: text) rest := by
  intro front found back split
  rcases front with _ | ⟨first, front⟩
  · obtain ⟨rfl, rfl⟩ := List.cons.inj split
    exact native
  · obtain ⟨rfl, inside⟩ := List.cons.inj split
    exact others front found back inside

/-- Characters that are of the language whatever follows them. -/
theorem allNative_of_forall {text rest : List Char}
    (native : ∀ character ∈ text, ∀ behind, Native character behind) : AllNative text rest := by
  rintro front character back rfl
  exact native character (by simp) _

/-- White space is of the language. -/
theorem allNative_of_blank {text rest : List Char}
    (isBlank : ∀ character ∈ text, Text.isBlank character = true) : AllNative text rest :=
  allNative_of_forall fun character member _ => .inr (.inr (.inl (isBlank character member)))

/-- What continues a word is of the language. -/
theorem native_of_isWordPart {character : Char} (part : isWordPart character = true)
    (rest : List Char) : Native character rest := by
  have cases : character.isAlphanum = true ∨ character = '_' := by
    simpa [isWordPart] using part
  rcases cases with letter | underscore
  · exact .inl letter
  · exact .inr (.inl underscore)

/-- What begins a word continues one. -/
theorem isWordPart_of_isWordStart {character : Char} (start : isWordStart character = true) :
    isWordPart character = true := by
  have cases : character.isAlpha = true ∨ character = '_' := by
    simpa [isWordStart] using start
  rcases cases with letter | underscore
  · simp [isWordPart, Char.isAlphanum, letter]
  · simp [isWordPart, underscore]

/-- Every character of a word continues one. -/
theorem IsWord.isWordPart {word : List Char} (isWord : IsWord word) :
    ∀ character ∈ word, isWordPart character = true := by
  obtain ⟨⟨first, begins, starts⟩, continued⟩ := isWord
  obtain ⟨others, rfl⟩ : ∃ others, word = first :: others := List.head?_eq_some_iff.mp begins
  exact List.forall_mem_cons.mpr ⟨isWordPart_of_isWordStart starts, continued⟩

/-- What belongs to a class is of the language. -/
theorem Classified.allNative {value : String} {kind : Token.Kind}
    (classified : Classified value kind) (rest : List Char) : AllNative value.toList rest := by
  rcases classified with ⟨isWord, _⟩ | ⟨isNumeral, _⟩ | ⟨isSign, spelled⟩
  · exact allNative_of_forall fun character member behind =>
      native_of_isWordPart (isWord.isWordPart character member) behind
  · refine allNative_of_forall fun character member behind => native_of_isWordPart ?_ behind
    exact isWordPart_of_isDigit (isNumeral.2 character member)
  · -- Only one sign has a character that is none by itself.
    have listed : (signs.all fun kind => kind.characters = ['!', '='] ||
        kind.characters.all (· ∈ signCharacters)) = true := by
      decide
    have finite : kind.characters = ['!', '='] ∨
        ∀ character ∈ kind.characters, character ∈ signCharacters := by
      simpa using List.all_eq_true.mp listed kind isSign
    have same : kind.characters = value.toList := by simp [Token.Kind.characters, spelled]
    rcases finite with mark | single
    · rw [← same, mark]
      have equals : AllNative ['='] rest := allNative_of_forall fun character member _ =>
        .inr (.inr (.inr (.inl (by rw [List.mem_singleton.mp member]; decide))))
      exact equals.cons (.inr (.inr (.inr (.inr ⟨rfl, rfl⟩))))
    · rw [← same]
      exact allNative_of_forall fun character member _ =>
        .inr (.inr (.inr (.inl (single character member))))

/-- Where nothing matches, the next character is not of the language. -/
theorem not_native_of_longest {first : Char} {others : List Char}
    (unknown : Pattern.longest? Pattern.all (first :: others) = none) : ¬ Native first others := by
  have nothing (pattern : Pattern) (listed : pattern ∈ Pattern.all) :
      pattern.taken (first :: others) = [] := by
    by_contra present
    exact Pattern.longest?_ne_none listed present unknown
  have noClass (pattern : Pattern) (isClass : pattern ∈ Pattern.classes) :
      ¬ pattern.Opens first := fun opens =>
    Pattern.taken_ne_nil_of_opens isClass opens
      (nothing pattern (Pattern.mem_all_iff.mpr (.inl isClass)))
  have noSign (kind : Token.Kind) (isSign : kind ∈ signs) :
      ¬ kind.characters <+: first :: others := by
    intro front
    have spelled : ∀ kind ∈ signs, kind.characters ≠ [] := by decide
    have taken := Pattern.taken_sign_of_front front
    have listed : Pattern.sign kind ∈ Pattern.all :=
      Pattern.mem_all_iff.mpr (.inr ⟨kind, isSign, rfl⟩)
    exact spelled kind isSign (taken.symm.trans (nothing _ listed))
  rintro (letter | rfl | isBlank | isSign | ⟨rfl, equals⟩)
  · rcases Bool.or_eq_true_iff.mp letter with alpha | digit
    · exact noClass .word (by decide) (by simp [Pattern.Opens, isWordStart, alpha])
    · exact noClass .digits (by decide) digit
  · exact noClass .word (by decide) (by decide : isWordStart '_' = true)
  · exact noClass .blanks (by decide) isBlank
  · have single : (signCharacters.all fun character =>
        signs.any (·.characters = [character])) = true := by
      decide
    obtain ⟨kind, listed, isSingle⟩ :=
      List.any_eq_true.mp (List.all_eq_true.mp single first isSign)
    have spelled : kind.characters = [first] := of_decide_eq_true isSingle
    exact noSign kind listed (by simp [spelled])
  · obtain ⟨behind, rfl⟩ : ∃ behind, others = '=' :: behind := List.head?_eq_some_iff.mp equals
    exact noSign .notEquals (by decide) ⟨behind, rfl⟩

/-- The tokens that are delivered before a fault are cut from a text of the language, and
the fault is at the first character that is not of it. Without a fault the whole text is of
the language. The induction is over what is delivered. -/
theorem Delivers.native {read text : List Char} {items : List Item}
    (delivers : Delivers read text items) :
    (∃ fault front character rest, .error fault ∈ items ∧ text = front ++ character :: rest ∧
      AllNative front (character :: rest) ∧ ¬ Native character rest ∧
      fault = ⟨.unrecognisedCharacter character, .behind (read ++ front)⟩) ∨
    ∃ tokens last, items = (tokens ++ [last]).map Except.ok ∧ AllNative text [] ∧
      Munches text tokens := by
  induction delivers with
  | @ending read text nothing =>
    have isBlank : ∀ character ∈ text, Text.isBlank character = true := by
      rw [← blank_eq_self nothing]
      exact isBlank_of_mem_blank
    exact .inr ⟨[], _, rfl, allNative_of_blank isBlank, .nil isBlank⟩
  | @fault read text others first split unknown =>
    refine .inl ⟨_, blank text, first, others, List.mem_singleton.mpr rfl, ?_,
      allNative_of_blank isBlank_of_mem_blank, not_native_of_longest unknown, rfl⟩
    rw [← split, blank_append_visible]
  | @token read text rest token items matched start stop others inductionHypothesis =>
    have whole : text = blank text ++ token.value.toList ++ rest := matched.whole []
    have front (behind : List Char) :
        AllNative (blank text ++ token.value.toList) behind :=
      (allNative_of_blank isBlank_of_mem_blank).append (matched.classified.allNative behind)
    rcases inductionHypothesis with
      ⟨fault, early, character, late, member, split, native, foreign, placed⟩ |
        ⟨tokens, last, rfl, native, munches⟩
    · refine .inl ⟨fault, blank text ++ token.value.toList ++ early, character, late,
        List.mem_cons_of_mem _ member, ?_, ?_, foreign, ?_⟩
      · rw [List.append_assoc, ← split]
        exact whole
      · exact (front _).append native
      · rw [placed]
        simp only [List.append_assoc]
    · refine .inr ⟨token :: tokens, last, rfl, ?_, ?_⟩
      · rw [whole]
        exact (front _).append native
      · rw [whole]
        exact .cons isBlank_of_mem_blank matched.munch munches

/-- Reading a source that is short enough for its positions is maximal munch. It succeeds
exactly if all characters are of the language, and then the source is cut into its tokens,
each the longest piece there is. Otherwise the first character that is not of the language
is reported at its position. -/
theorem Source.tokens_munch (source : String) (short : source.utf8ByteSize < 2 ^ 32 - 1) :
    ((∃ tokens, Source.tokens source = .ok tokens) ↔ AllNative source.toList []) ∧
    match Source.tokens source with
    | .ok tokens => ∃ pieces last, tokens = pieces ++ [last] ∧ last.kind = .endOfInput ∧
        Munches source.toList pieces
    | .error fault => ∃ front character rest, source.toList = front ++ character :: rest ∧
        AllNative front (character :: rest) ∧ ¬ Native character rest ∧
        fault.cause = .unrecognisedCharacter character ∧ fault.position.Exact front := by
  have small : byteLength source.toList < 2 ^ 32 - 1 := byteLength_toList source ▸ short
  have native := (items_delivers source).native
  obtain ⟨tokens, _, ⟨last, ends, shape, succeeds⟩ | ⟨fault, shape, fails⟩⟩ :=
    Source.tokens_outcome source
  · rw [shape] at native
    rcases native with ⟨fault, _, _, _, member, _⟩ | ⟨pieces, other, same, native, munches⟩
    · obtain ⟨token, _, impossible⟩ := List.mem_map.mp member
      exact absurd impossible (by simp)
    · have equal := (List.map_injective_iff.mpr fun _ _ => Except.ok.inj) same
      obtain ⟨rfl, _⟩ := List.append_inj' equal rfl
      rw [succeeds]
      exact ⟨⟨fun _ => native, fun _ => ⟨_, rfl⟩⟩, tokens, last, rfl, ends, munches⟩
  · rw [shape] at native
    rcases native with
      ⟨found, front, character, rest, member, split, early, foreign, placed⟩ |
        ⟨pieces, other, same, _⟩
    · obtain rfl : found = fault := by simpa using member
      have exact : (Position.behind front).Exact front :=
        Position.exact_of_front (split ▸ List.prefix_append _ _) small
      rw [fails]
      refine ⟨⟨fun ⟨_, impossible⟩ => absurd impossible (by simp), fun native => ?_⟩,
        front, character, rest, split, early, foreign, ?_, ?_⟩
      · have here := native front character rest split
        rw [List.append_nil] at here
        exact absurd here foreign
      · rw [placed]
      · rw [placed]
        exact exact
    · have member : (.error fault : Item) ∈ (pieces ++ [other]).map Except.ok := by
        rw [← same]
        simp
      obtain ⟨token, _, impossible⟩ := List.mem_map.mp member
      exact absurd impossible (by simp)

/-- Signs in a row are cut from the left, each as long as can be, and digits in front of a
name are a number of their own. -/
theorem Source.tokens_munch_signs :
    let source := "a***b=!==1x"
    ∃ pieces : List Token, Munches source.toList pieces ∧ pieces.map Token.kind =
      [.identifier, .starStar, .star, .identifier, .assignment, .notEquals, .assignment, .number,
        .identifier] := by
  intro source
  have munched := (Source.tokens_munch source (by decide)).2
  have kinds : (Source.tokens source).toOption.map (List.map Token.kind) =
      some ([.identifier, .starStar, .star, .identifier, .assignment, .notEquals, .assignment,
        .number, .identifier] ++ [.endOfInput]) := by
    decide +kernel
  rcases found : Source.tokens source with fault | tokens
  · rw [found] at kinds
    exact absurd kinds (by simp [Except.toOption])
  · rw [found] at munched kinds
    obtain ⟨pieces, last, rfl, _, munches⟩ := munched
    have same := Option.some.inj kinds
    rw [List.map_append] at same
    exact ⟨pieces, munches, (List.append_inj' same rfl).1⟩

end StartEnd
