import StartEnd.Proofs.Lexing.Delivery

/-!
# Reading loses nothing

A cursor can be asked for items without end: it gives those that reading delivers, and then
none. Each token among them is a piece of the source, and its span counts what stands
before and behind this piece. The pieces are in order, and between them there is nothing
but white space. At last comes the end of the input behind the whole source, or the first
character that nothing begins with.
-/

namespace StartEnd

/-- The stretch of source that an item is about; a fault has only a position. -/
def Item.span : Item → Span
  | .ok token => token.span
  | .error fault => .point fault.position

/-- The bytes of a source that a token covers. -/
def Token.Covers (token : Token) (offset : Nat) : Prop :=
  token.span.start.offset.toNat ≤ offset ∧ offset < token.span.stop.offset.toNat

/-- A token is a piece of a source, and its span is exact. -/
def Token.StandsIn (token : Token) (source : String) : Prop :=
  ∃ front rest, source.toList = front ++ token.value.toList ++ rest ∧
    token.span.start.Exact front ∧ token.span.stop.Exact (front ++ token.value.toList)

/-- How reading ends: with the end of the input behind the whole source, or with a fault at
the character that it names. -/
def Item.Closes (source : String) : Item → Prop
  | .ok token => ∃ position, token = Token.ending position ∧ position.Exact source.toList ∧
      position.offset.toNat = source.utf8ByteSize
  | .error fault => ∃ front first rest, source.toList = front ++ first :: rest ∧
      fault.cause = .unrecognisedCharacter first ∧ fault.position.Exact front

namespace Cursor

/-- What asking a cursor again and again gives. -/
def calls : Nat → Cursor → Except OffBoundary (List (Option Item))
  | 0, _ => .ok []
  | count + 1, cursor => do
    let (item?, following) ← cursor.next
    return item? :: (← following.calls count)

/-- A finished cursor gives nothing any more. -/
theorem calls_finished {cursor : Cursor} (finished : cursor.finished = true) (count : Nat) :
    cursor.calls count = .ok ((List.range count).map fun _ => none) := by
  induction count with
  | zero => rfl
  | succ count inductionHypothesis =>
    have ran : cursor.next = .ok (none, cursor) := by
      simp [next, nextBy, look, finished, bind, Except.bind, pure, Except.pure]
    rw [List.range_succ_eq_map, List.map_cons, List.map_map]
    simp only [calls, ran, bind, Except.bind, inductionHypothesis, pure, Except.pure]
    rfl

/-- Asking a cursor again and again gives what reading delivers, and then nothing. The
induction is over how often the cursor is asked. -/
theorem calls_of_reading {cursor : Cursor} {read text : List Char}
    (reading : cursor.Reading read text) {bound : Nat} (enough : text.length < bound)
    (count : Nat) :
    cursor.calls count =
      .ok ((List.range count).map ((cursor.drainWithin Pattern.all bound).1[·]?)) := by
  induction count generalizing cursor read text bound with
  | zero => rfl
  | succ count inductionHypothesis =>
    obtain ⟨bound, rfl⟩ : ∃ fewer, bound = fewer + 1 := ⟨bound - 1, by omega⟩
    obtain ⟨item, following, ran, hands⟩ := next_outcome reading
    have unfolded : (cursor.drainWithin Pattern.all (bound + 1)).1 =
        item :: (following.drainWithin Pattern.all bound).1 := by
      simp [drainWithin, ran]
    have others : following.calls count =
        .ok ((List.range count).map ((following.drainWithin Pattern.all bound).1[·]?)) := by
      rcases hands.following with finished | ⟨further, rest, behind, shorter⟩
      · rw [calls_finished finished, drainWithin_finished finished]
        rfl
      · have visibleLength : (visible text).length ≤ text.length :=
          (List.dropWhile_suffix _).length_le
        exact inductionHypothesis behind (by omega)
    have asked : cursor.next = .ok (some item, following) := ran
    rw [List.range_succ_eq_map, List.map_cons, List.map_map, unfolded]
    simp only [calls, asked, bind, Except.bind, others, pure, Except.pure]
    rfl

end Cursor

/-- Asking a cursor from the start of a source on gives the items of the source. -/
theorem Source.calls_start (source : String) (count : Nat) :
    (Cursor.start source).calls count =
      .ok ((List.range count).map ((Source.items source)[·]?)) := by
  have reading : (Cursor.start source).Reading [] source.toList := ⟨rfl, rfl, rfl, rfl⟩
  exact Cursor.calls_of_reading reading (Nat.lt_succ_self _) count

/-- Each item is at its place in a text: a token where its value stands, a fault at the
character that it names, and the end of the input behind the text. -/
inductive Placed (text : List Char) : Item → Prop where
  | ending : Placed text (.ok (Token.ending (.behind text)))
  | fault {front rest : List Char} {first : Char} (split : text = front ++ first :: rest) :
    Placed text (.error ⟨.unrecognisedCharacter first, .behind front⟩)
  | token {front rest : List Char} {token : Token} (visible : token.kind ≠ .endOfInput)
      (split : text = front ++ token.value.toList ++ rest)
      (start : token.span.start = .behind front)
      (stop : token.span.stop = .behind (front ++ token.value.toList)) :
    Placed text (.ok token)

section Delivery

variable {read text : List Char} {items : List Item}

/-- All items that are delivered are at their places. -/
theorem Delivers.placed (delivers : Delivers read text items) :
    ∀ item ∈ items, Placed (read ++ text) item := by
  induction delivers with
  | ending nothing =>
    rintro item (_ | ⟨_, _ | _⟩)
    exact .ending
  | @fault read text others first split unknown =>
    rintro item (_ | ⟨_, _ | _⟩)
    have whole : read ++ text = read ++ blank text ++ first :: others := by
      rw [List.append_assoc, ← split, blank_append_visible]
    exact .fault whole
  | @token read text rest token items matched start stop others inductionHypothesis =>
    have whole := matched.whole read
    refine List.forall_mem_cons.mpr ⟨.token matched.lexical.visible whole start stop, ?_⟩
    rwa [whole]

/-- All items that are delivered begin behind what was read before. -/
theorem Delivers.begins (delivers : Delivers read text items) :
    ∀ item ∈ items, ∃ front, item.span.start = .behind front ∧ read <+: front ∧
      front <+: read ++ text := by
  induction delivers with
  | @ending read text nothing =>
    rintro item (_ | ⟨_, _ | _⟩)
    exact ⟨read ++ text, rfl, List.prefix_append _ _, List.prefix_refl _⟩
  | @fault read text others first split unknown =>
    rintro item (_ | ⟨_, _ | _⟩)
    refine ⟨read ++ blank text, rfl, List.prefix_append _ _, ?_⟩
    rw [List.prefix_append_right_inj]
    exact List.takeWhile_prefix _
  | @token read text rest token items matched start stop others inductionHypothesis =>
    have whole := matched.whole read
    refine List.forall_mem_cons.mpr ⟨?_, fun item member => ?_⟩
    · refine ⟨read ++ blank text, start, List.prefix_append _ _, ?_⟩
      rw [whole, List.append_assoc]
      exact List.prefix_append _ _
    · obtain ⟨front, starts, behind, inside⟩ := inductionHypothesis item member
      refine ⟨front, starts, List.IsPrefix.trans ?_ behind, ?_⟩
      · rw [List.append_assoc]
        exact List.prefix_append _ _
      · rwa [whole]

/-- The items are in order: none begins before an earlier one has ended. -/
theorem Delivers.ordered (delivers : Delivers read text items)
    (short : byteLength (read ++ text) < 2 ^ 32 - 1) :
    items.Pairwise fun left right => left.span.stop.offset ≤ right.span.start.offset := by
  induction delivers with
  | ending nothing => exact List.pairwise_singleton _ _
  | fault split unknown => exact List.pairwise_singleton _ _
  | @token read text rest token items matched start stop others inductionHypothesis =>
    rw [matched.whole read] at short
    refine List.pairwise_cons.mpr ⟨fun item member => ?_, inductionHypothesis short⟩
    obtain ⟨front, starts, behind, inside⟩ := others.begins item member
    have stops : Item.span (.ok token) = token.span := rfl
    rw [stops, stop, starts]
    exact Position.offset_behind_le behind
      (Nat.lt_of_le_of_lt (byteLength_le_of_front inside) short)

/-- A character that stands behind a text stands at a place of its own there. -/
theorem split_behind {left right front rest : List Char} {character : Char}
    (split : left ++ right = front ++ character :: rest)
    (behind : byteLength left ≤ byteLength front) :
    ∃ middle, front = left ++ middle ∧ right = middle ++ character :: rest := by
  rcases List.append_eq_append_iff.mp split with ⟨middle, front, back⟩ | ⟨middle, back, front⟩
  · exact ⟨middle, front, back⟩
  · rcases middle with _ | ⟨first, middle⟩
    · refine ⟨[], ?_, by simpa using front.symm⟩
      simpa using back.symm
    · have positive : 0 < first.utf8Size := first.utf8Size_pos
      rw [back, byteLength_append, byteLength_cons] at behind
      omega

/-- A character that begins before the end of a text belongs to it. -/
theorem mem_of_split {left right front rest : List Char} {character : Char}
    (split : left ++ right = front ++ character :: rest)
    (before : byteLength front < byteLength left) : character ∈ left := by
  rcases List.append_eq_append_iff.mp split with ⟨middle, rfl, back⟩ | ⟨middle, rfl, back⟩
  · rw [byteLength_append] at before
    omega
  · rcases middle with _ | ⟨first, middle⟩
    · simp at before
    · obtain ⟨rfl, _⟩ := List.cons.inj back
      simp

/-- A character that no token covers is white space, if it stands before the fault. The
induction is over what is delivered: a character is found in the white space at the front,
in the token behind that, or further on. -/
theorem Delivers.uncovered (delivers : Delivers read text items)
    (short : byteLength (read ++ text) < 2 ^ 32 - 1) {front rest : List Char} {character : Char}
    (split : read ++ text = front ++ character :: rest)
    (behind : byteLength read ≤ byteLength front)
    (uncovered : ∀ token, .ok token ∈ items → ¬ token.Covers (byteLength front))
    (before : ∀ fault, .error fault ∈ items →
      byteLength front < fault.position.offset.toNat) : Text.isBlank character = true := by
  -- What begins before the end of the white space is part of it.
  have ofBlank {read text : List Char} (split : read ++ text = front ++ character :: rest)
      (behind : byteLength read ≤ byteLength front)
      (early : byteLength front < byteLength (read ++ blank text)) :
      Text.isBlank character = true := by
    obtain ⟨middle, rfl, further⟩ := split_behind split behind
    rw [← blank_append_visible text] at further
    refine isBlank_of_mem_blank character (mem_of_split further ?_)
    simpa using early
  induction delivers with
  | @ending read text nothing =>
    refine ofBlank split behind ?_
    have positive : 0 < character.utf8Size := character.utf8Size_pos
    rw [blank_eq_self nothing, split, byteLength_append, byteLength_cons]
    omega
  | @fault read text others first found unknown =>
    refine ofBlank split behind ?_
    have inside : read ++ blank text <+: read ++ text := by
      rw [List.prefix_append_right_inj]
      exact List.takeWhile_prefix _
    rw [← (Position.exact_of_front inside short).offset]
    exact before _ (List.mem_singleton.mpr rfl)
  | @token read text remaining token items matched start stop others inductionHypothesis =>
    by_cases early : byteLength front < byteLength (read ++ blank text)
    · exact ofBlank split behind early
    · rw [matched.whole read] at short split
      have stops := Position.exact_of_front (List.prefix_append _ remaining) short
      have starts := Position.exact_of_front
        ((List.prefix_append _ token.value.toList).trans (List.prefix_append _ remaining)) short
      rw [← stop] at stops
      rw [← start] at starts
      have startOffset := starts.offset
      have stopOffset := stops.offset
      refine inductionHypothesis short split ?_ (fun other member => ?_) fun fault member => ?_
      · have missed : ¬ token.Covers (byteLength front) :=
          uncovered token List.mem_cons_self
        unfold Token.Covers at missed
        omega
      · exact uncovered other (List.mem_cons_of_mem _ member)
      · exact before fault (List.mem_cons_of_mem _ member)

end Delivery

/-- The bytes of a source in the span of a token are the bytes of its value. -/
theorem Token.StandsIn.bytes {token : Token} {source : String} (stands : token.StandsIn source) :
    source.toByteArray.extract token.span.start.offset.toNat token.span.stop.offset.toNat =
      token.value.toByteArray := by
  obtain ⟨front, rest, split, start, stop⟩ := stands
  have whole : source = String.ofList front ++ token.value ++ String.ofList rest := by
    have stored : String.ofList source.toList = source := String.ofList_toList
    rw [← stored, split, String.ofList_append, String.ofList_append, String.ofList_toList]
  have sized : (String.ofList front).toByteArray.size = byteLength front := by
    rw [String.size_toByteArray, ← byteLength_toList, String.toList_ofList]
  have sizedValue : token.value.toByteArray.size = byteLength token.value.toList := by
    rw [String.size_toByteArray, ← byteLength_toList]
  rw [start.offset, stop.offset, byteLength_append, whole, String.toByteArray_append,
    String.toByteArray_append, ← sized, ← sizedValue, ByteArray.extract_append,
    ByteArray.extract_append_eq_right rfl rfl]
  simp

/-- A token at its place is a piece of the source with an exact span. -/
theorem Placed.standsIn {token : Token} {source : String}
    (placed : Placed source.toList (.ok token)) (visible : token.kind ≠ .endOfInput)
    (short : byteLength source.toList < 2 ^ 32 - 1) : token.StandsIn source := by
  cases placed with
  | ending => exact absurd rfl visible
  | @token front rest _ _ split start stop =>
    refine ⟨front, rest, split, ?_, ?_⟩
    · rw [start]
      refine Position.exact_of_front ?_ short
      rw [split, List.append_assoc]
      exact List.prefix_append _ _
    · rw [stop]
      refine Position.exact_of_front ?_ short
      rw [split]
      exact List.prefix_append _ _

/-- An item at its place that is no other token closes the source. -/
theorem Placed.closes {item : Item} {source : String} (placed : Placed source.toList item)
    (ends : ∀ token, item = .ok token → token.kind = .endOfInput)
    (short : byteLength source.toList < 2 ^ 32 - 1) : item.Closes source := by
  cases placed with
  | ending =>
    have exact := Position.exact_behind short
    exact ⟨_, rfl, exact, exact.offset.trans (byteLength_toList source)⟩
  | @fault front rest first split =>
    refine ⟨front, first, rest, split, rfl, Position.exact_of_front ?_ short⟩
    rw [split]
    exact List.prefix_append _ _
  | token visible _ _ _ => exact absurd (ends _ rfl) visible

/-- The ending of a source covers nothing of it. -/
theorem Item.Closes.uncovered {token : Token} {source : String}
    (closes : Item.Closes source (.ok token)) (offset : Nat) : ¬ token.Covers offset := by
  obtain ⟨position, rfl, _⟩ := closes
  rintro ⟨starts, stops⟩
  exact absurd stops (Nat.not_lt.mpr starts)

/-- Reading a source that is short enough for its positions loses nothing. A cursor gives
tokens, then one ending or one fault, and then nothing, and it never stands inside a
character. The tokens are pieces of the source in order, with exact spans, and every
character outside of them is white space, up to the fault if there is one. -/
theorem Source.items_lossless (source : String) (short : source.utf8ByteSize < 2 ^ 32 - 1) :
    ∃ (tokens : List Token) (last : Item),
      Source.items source = tokens.map Except.ok ++ [last] ∧
      (∀ count, (Cursor.start source).calls count =
        .ok ((List.range count).map ((tokens.map Except.ok ++ [last])[·]?))) ∧
      (∀ token ∈ tokens, token.kind ≠ .endOfInput ∧ token.StandsIn source ∧
        source.toByteArray.extract token.span.start.offset.toNat token.span.stop.offset.toNat =
          token.value.toByteArray) ∧
      last.Closes source ∧
      (Source.items source).Pairwise
        (fun left right => left.span.stop.offset ≤ right.span.start.offset) ∧
      ∀ front character rest, source.toList = front ++ character :: rest →
        byteLength front < last.span.start.offset.toNat →
        (∀ token ∈ tokens, ¬ token.Covers (byteLength front)) →
        Text.isBlank character = true := by
  have small : byteLength source.toList < 2 ^ 32 - 1 := byteLength_toList source ▸ short
  have delivers := items_delivers source
  obtain ⟨tokens, last, shape, lexical, ends⟩ := delivers.shape
  have placed : ∀ item ∈ tokens.map Except.ok ++ [last], Placed source.toList item :=
    shape ▸ delivers.placed
  have stands (token : Token) (member : token ∈ tokens) : token.StandsIn source :=
    (placed _ (List.mem_append_left _ (List.mem_map_of_mem member))).standsIn
      (lexical token member).visible small
  have closes : last.Closes source :=
    (placed last (List.mem_append_right _ List.mem_cons_self)).closes ends small
  refine ⟨tokens, last, shape, fun count => ?_, fun token member => ?_, closes, ?_, ?_⟩
  · rw [← shape]
    exact Source.calls_start source count
  · exact ⟨(lexical token member).visible, stands token member, (stands token member).bytes⟩
  · exact delivers.ordered small
  · intro front character rest split before uncovered
    refine delivers.uncovered small split (Nat.zero_le _) (fun token member => ?_)
      fun fault member => ?_
    · rw [shape, List.mem_append, List.mem_map, List.mem_singleton] at member
      rcases member with ⟨other, inside, same⟩ | rfl
      · obtain rfl := Except.ok.inj same
        exact uncovered other inside
      · exact closes.uncovered _
    · rw [shape, List.mem_append, List.mem_map, List.mem_singleton] at member
      rcases member with ⟨_, _, impossible⟩ | rfl
      · exact absurd impossible (by simp)
      · exact before

/-- A source with a wide space, a line feed and a foreign character in its second line has
three tokens before that, with only white space outside of them. -/
theorem Source.items_lossless_wide :
    let source := "x\u3000=\n y $ z"
    ∃ (tokens : List Token) (last : Item),
      Source.items source = tokens.map Except.ok ++ [last] ∧ tokens.length = 3 ∧
      (∀ token ∈ tokens, token.StandsIn source) ∧ last.Closes source ∧
      ∀ front character rest, source.toList = front ++ character :: rest →
        byteLength front < last.span.start.offset.toNat →
        (∀ token ∈ tokens, ¬ token.Covers (byteLength front)) →
        Text.isBlank character = true := by
  intro source
  obtain ⟨tokens, last, shape, _, pieces, closes, _, between⟩ :=
    Source.items_lossless source (by decide)
  have counted : (Source.items source).length = 4 := by decide +kernel
  have three : tokens.length = 3 := by simpa [shape] using counted
  exact ⟨tokens, last, shape, three, fun token member => (pieces token member).2.1, closes,
    between⟩

end StartEnd
