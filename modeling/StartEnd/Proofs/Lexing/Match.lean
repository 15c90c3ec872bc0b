import Mathlib.Data.List.Infix
import StartEnd.Token.Pattern

/-!
# What the longest match is

The first character of a text decides which patterns can match: letters and the
underscore begin words, digits begin numbers, white space is white space, and the fixed
texts begin with none of these. So a word, a number or white space is the longest match
as soon as the character behind it does not continue it, and a fixed text is the longest
match unless the text goes on to a longer one.
-/

namespace StartEnd

/-- The kinds whose texts are no words. -/
def signs : List Token.Kind :=
  [.openCurly, .closeCurly, .openParen, .closeParen, .equals, .notEquals, .assignment, .less,
    .greater, .semicolon, .comma, .plusPlus, .minusMinus, .starStar, .plus, .dash, .slash, .star]

/-- The text of a kind that fixes its text. -/
def Token.Kind.characters (kind : Token.Kind) : List Char := (kind.lexeme?.getD "").toList

/-- The only text of a kind has the characters of the kind. -/
theorem Token.Kind.characters_of_lexeme? {kind : Token.Kind} {text : String}
    (fixed : kind.lexeme? = some text) : kind.characters = text.toList := by
  rw [characters, fixed]
  rfl

namespace Pattern

/-- A pattern that takes more than every other one is the longest match. The induction is
over the table: before the pattern everything is shorter, and behind it nothing is
longer. -/
theorem longest?_of_dominant {table : List Pattern} {text found : List Char} {pattern : Pattern}
    (listed : pattern ∈ table) (takes : pattern.taken text = found) (present : found ≠ [])
    (dominates : ∀ other ∈ table, other ≠ pattern →
      (other.taken text).length < found.length) :
    longest? table text = some (pattern, found) := by
  subst takes
  have kept : ∀ remaining : List Pattern, (∀ other ∈ remaining, other ≠ pattern →
      (other.taken text).length < (pattern.taken text).length) →
      remaining.foldl (better text) (some (pattern, pattern.taken text)) =
        some (pattern, pattern.taken text) := by
    intro remaining shorter
    induction remaining with
    | nil => rfl
    | cons first rest inductionHypothesis =>
      have bounded : (first.taken text).length ≤ (pattern.taken text).length := by
        by_cases same : first = pattern
        · rw [same]
        · exact Nat.le_of_lt (shorter first (by simp) same)
      have stays : better text (some (pattern, pattern.taken text)) first =
          some (pattern, pattern.taken text) := by
        simp [better, Nat.not_lt.mpr bounded]
      rw [List.foldl_cons, stays]
      exact inductionHypothesis fun other member => shorter other (List.mem_cons_of_mem _ member)
  have found : ∀ (remaining : List Pattern) (best : Option (Pattern × List Char)),
      pattern ∈ remaining →
      (best.elim 0 fun current => current.2.length) < (pattern.taken text).length →
      (∀ other ∈ remaining, other ≠ pattern →
        (other.taken text).length < (pattern.taken text).length) →
      remaining.foldl (better text) best = some (pattern, pattern.taken text) := by
    intro remaining
    induction remaining with
    | nil => exact fun _ member => absurd member (by simp)
    | cons first rest inductionHypothesis =>
      intro best member below shorter
      have further : ∀ other ∈ rest, other ≠ pattern →
          (other.taken text).length < (pattern.taken text).length :=
        fun other inside => shorter other (List.mem_cons_of_mem _ inside)
      rw [List.foldl_cons]
      by_cases same : first = pattern
      · subst same
        have chosen : better text best first = some (first, first.taken text) := by
          simp [better, below]
        rw [chosen]
        exact kept rest further
      · have inside : pattern ∈ rest := by
          rcases List.mem_cons.mp member with equal | later
          · exact absurd equal.symm same
          · exact later
        refine inductionHypothesis _ inside ?_ further
        by_cases longer : (best.elim 0 fun current => current.2.length) < (first.taken text).length
        · simpa [better, longer] using shorter first (by simp) same
        · simpa [better, longer] using below
  refine found table none listed ?_ dominates
  simpa using List.length_pos_iff.mpr present

end Pattern

/-- Digits by their code points. -/
theorem isDigit_iff (character : Char) :
    character.isDigit = true ↔ 48 ≤ character.toNat ∧ character.toNat ≤ 57 := by
  simp [Char.isDigit, UInt32.le_iff_toNat_le]

/-- The beginnings of words by their code points. -/
theorem isWordStart_iff (character : Char) :
    isWordStart character = true ↔ (65 ≤ character.toNat ∧ character.toNat ≤ 90) ∨
      (97 ≤ character.toNat ∧ character.toNat ≤ 122) ∨ character.toNat = 95 := by
  have underscore : character = '_' ↔ character.toNat = 95 := Char.toNat_inj.symm
  have alpha : character.isAlpha = (decide (65 ≤ character.toNat ∧ character.toNat ≤ 90) ||
      decide (97 ≤ character.toNat ∧ character.toNat ≤ 122)) := by
    delta Char.isAlpha Char.isUpper Char.isLower
    simp [UInt32.le_iff_toNat_le]
  simp [isWordStart, alpha, underscore, or_assoc]

/-- Every digit continues a word. -/
theorem isWordPart_of_isDigit {character : Char} (digit : character.isDigit = true) :
    isWordPart character = true := by
  simp [isWordPart, Char.isAlphanum, digit]

namespace Pattern

/-- The pattern of a sign. -/
def sign (kind : Token.Kind) : Pattern := fixed (kind.lexeme?.getD "") kind

/-- A sign that stands at the front of a text is taken. -/
theorem taken_sign_of_front {kind : Token.Kind} {text : List Char}
    (front : kind.characters <+: text) : (sign kind).taken text = kind.characters :=
  if_pos (List.isPrefixOf_iff_prefix.mpr front)

/-- A sign that takes something takes its own text, which stands at the front. -/
theorem taken_sign {kind : Token.Kind} {text : List Char} (present : (sign kind).taken text ≠ []) :
    (sign kind).taken text = kind.characters ∧ kind.characters <+: text := by
  by_cases front : kind.characters.isPrefixOf text = true
  · exact ⟨if_pos front, List.isPrefixOf_iff_prefix.mp front⟩
  · exact absurd (if_neg front) present

/-- A character with which a pattern can begin. -/
def Opens (pattern : Pattern) (character : Char) : Prop :=
  match pattern with
  | word => isWordStart character = true
  | digits => character.isDigit = true
  | blanks => Text.isBlank character = true
  | fixed lexeme _ => lexeme.toList.head? = some character

/-- The classes of text, without the signs. -/
def classes : List Pattern := [word, digits, blanks]

/-- The table lists the classes, and for each sign the text that is shown for its kind. -/
theorem all_eq : all = classes ++ signs.map sign := rfl

/-- The patterns are the classes and one for each sign. -/
theorem mem_all_iff {pattern : Pattern} :
    pattern ∈ all ↔ pattern ∈ classes ∨ ∃ kind ∈ signs, sign kind = pattern := by
  rw [all_eq, List.mem_append, List.mem_map]

/-- A pattern takes something only from a text that begins as it can. -/
theorem opens_of_taken {pattern : Pattern} {first : Char} {rest : List Char}
    (present : pattern.taken (first :: rest) ≠ []) : pattern.Opens first := by
  cases pattern with
  | word =>
    by_contra other
    exact present (if_neg other)
  | digits =>
    by_contra other
    exact present (List.takeWhile_cons_of_neg other)
  | blanks =>
    by_contra other
    exact present (List.takeWhile_cons_of_neg other)
  | fixed lexeme kind =>
    by_cases front : lexeme.toList.isPrefixOf (first :: rest) = true
    · have taken : (fixed lexeme kind).taken (first :: rest) = lexeme.toList := if_pos front
      rw [taken] at present
      obtain ⟨character, others, split⟩ := List.exists_cons_of_ne_nil present
      have same : character = first := by
        rw [split] at front
        simp only [List.isPrefixOf_cons_cons, Bool.and_eq_true, beq_iff_eq] at front
        exact front.1
      simp [Opens, split, same]
    · exact absurd (if_neg front) present

/-- A class takes something from every text that begins as it can. -/
theorem taken_ne_nil_of_opens {pattern : Pattern} (isClass : pattern ∈ classes) {first : Char}
    {rest : List Char} (opens : pattern.Opens first) : pattern.taken (first :: rest) ≠ [] := by
  simp only [classes, List.mem_cons, List.not_mem_nil, or_false] at isClass
  rcases isClass with rfl | rfl | rfl
  · have start : isWordStart first = true := opens
    simp [taken, start]
  · have start : first.isDigit = true := opens
    simp [taken, start]
  · have start : Text.isBlank first = true := opens
    simp [taken, start]

/-- No sign begins like a class. -/
theorem not_opens_of_sign {kind : Token.Kind} (isSign : kind ∈ signs) {first : Char}
    (opens : (sign kind).Opens first) {pattern : Pattern} (isClass : pattern ∈ classes) :
    ¬ pattern.Opens first := by
  have apart : ∀ kind ∈ signs, (kind.characters.head?.all fun first =>
      !isWordStart first && !first.isDigit && !Text.isBlank first) = true := by
    decide
  have begins : kind.characters.head? = some first := opens
  have outside := apart kind isSign
  rw [begins] at outside
  obtain ⟨⟨noWord, noDigit⟩, noBlank⟩ :
      (isWordStart first = false ∧ first.isDigit = false) ∧ Text.isBlank first = false := by
    simpa using outside
  simp only [classes, List.mem_cons, List.not_mem_nil, or_false] at isClass
  rcases isClass with rfl | rfl | rfl
  · simp [Opens, noWord]
  · simp [Opens, noDigit]
  · simp [Opens, noBlank]

/-- Two classes do not begin alike. -/
theorem eq_of_opens {pattern other : Pattern} (isClass : pattern ∈ classes)
    (otherClass : other ∈ classes) {first : Char} (opens : pattern.Opens first)
    (again : other.Opens first) : other = pattern := by
  simp only [classes, List.mem_cons, List.not_mem_nil, or_false] at isClass otherClass
  rcases isClass with rfl | rfl | rfl <;> rcases otherClass with rfl | rfl | rfl
  all_goals first | rfl | skip
  all_goals
    simp only [Opens, isWordStart_iff, isDigit_iff, Text.isBlank, Text.covered_iff,
      Text.blankRanges, List.mem_cons, List.not_mem_nil, or_false, exists_eq_or_imp,
      exists_eq_left] at opens again
    omega

/-- A text that begins like a class has the class as its longest match. -/
theorem longest?_of_class (pattern : Pattern) (isClass : pattern ∈ classes) {first : Char}
    {rest : List Char} (opens : pattern.Opens first) :
    longest? all (first :: rest) = some (pattern, pattern.taken (first :: rest)) := by
  have present : pattern.taken (first :: rest) ≠ [] := taken_ne_nil_of_opens isClass opens
  apply longest?_of_dominant (mem_all_iff.mpr (.inl isClass)) rfl present
  intro other member different
  have nothing : other.taken (first :: rest) = [] := by
    by_contra something
    have again : other.Opens first := opens_of_taken something
    rcases mem_all_iff.mp member with otherClass | ⟨kind, isSign, rfl⟩
    · exact different (eq_of_opens isClass otherClass opens again)
    · exact not_opens_of_sign isSign again isClass opens
  rw [nothing]
  exact List.length_pos_iff.mpr present

/-- The signs that are the beginning of a longer sign. -/
def extendable : List Token.Kind := [.assignment, .plus, .dash, .star]

/-- A sign that stands at the front of a text that begins with another one is shorter,
unless the text goes on with what makes a longer sign. -/
theorem length_lt_of_sign {kind other : Token.Kind} (isSign : kind ∈ signs)
    (otherSign : other ∈ signs) (different : other ≠ kind) {rest : List Char}
    (front : other.characters <+: kind.characters ++ rest)
    (ends : kind ∈ extendable → ∀ next ∈ rest.head?, next ∉ ['=', '+', '-', '*']) :
    other.characters.length < kind.characters.length := by
  rcases List.prefix_or_prefix_of_prefix front (List.prefix_append _ _) with inside | longer
  · have finite : ∀ kind ∈ signs, ∀ other ∈ signs, other.characters <+: kind.characters →
        other ≠ kind → other.characters.length < kind.characters.length := by
      decide
    exact finite kind isSign other otherSign inside different
  · have finite : ∀ kind ∈ signs, ∀ other ∈ signs, kind.characters <+: other.characters →
        other ≠ kind → kind ∈ extendable ∧
          (['=', '+', '-', '*'].any fun next => other.characters = kind.characters ++ [next]) := by
      decide
    obtain ⟨extending, found⟩ := finite kind isSign other otherSign longer different
    obtain ⟨next, isLonger, isSame⟩ := List.any_eq_true.mp found
    have same : other.characters = kind.characters ++ [next] := of_decide_eq_true isSame
    rw [same, List.prefix_append_right_inj] at front
    have begins : rest.head? = some next := by
      obtain ⟨others, rfl⟩ := front
      rfl
    exact absurd isLonger (ends extending next begins)

/-- A sign is the longest match unless the text goes on to a longer sign. -/
theorem longest?_of_sign {kind : Token.Kind} (isSign : kind ∈ signs) {rest : List Char}
    (ends : kind ∈ extendable → ∀ next ∈ rest.head?, next ∉ ['=', '+', '-', '*']) :
    longest? all (kind.characters ++ rest) = some (sign kind, kind.characters) := by
  have spelled : ∀ kind ∈ signs, kind.characters ≠ [] := by decide
  have present : kind.characters ≠ [] := spelled kind isSign
  have taken : (sign kind).taken (kind.characters ++ rest) = kind.characters :=
    taken_sign_of_front (List.prefix_append _ _)
  have shorter : ∀ other ∈ all, other ≠ sign kind →
      (other.taken (kind.characters ++ rest)).length < kind.characters.length := by
    intro other member different
    by_cases nothing : other.taken (kind.characters ++ rest) = []
    · rw [nothing]
      exact List.length_pos_iff.mpr present
    rcases mem_all_iff.mp member with isClass | ⟨longer, longerSign, rfl⟩
    · obtain ⟨first, others, split⟩ := List.exists_cons_of_ne_nil present
      rw [split, List.cons_append] at nothing
      have opens : (sign kind).Opens first := congrArg List.head? split
      exact absurd (opens_of_taken nothing) (not_opens_of_sign isSign opens isClass)
    · obtain ⟨same, front⟩ := taken_sign nothing
      rw [same]
      exact length_lt_of_sign isSign longerSign (fun equal => different (congrArg sign equal))
        front ends
  exact longest?_of_dominant (mem_all_iff.mpr (.inr ⟨kind, isSign, rfl⟩)) taken present shorter

end Pattern

end StartEnd
