import StartEnd.Proofs.Lexing.Lossless
import StartEnd.Proofs.Online.Program

/-!
# The first fault of a source wins

A source can be read while it is parsed, or before. If all of it can be read, both give the
same. If reading meets a fault, a parse that asks for items as it needs them meets this
fault exactly if it gets so far: a fault that is found at a token before comes first.
-/

namespace StartEnd.Parse

open State

/-- The items of a stream are handed out in their order. -/
theorem handed_get_of_lt {stream : List Item} {index : Nat} {item : Item}
    (found : stream[index]? = some item) : (handed stream).get index = item := by
  obtain ⟨inside, isItem⟩ := List.getElem?_eq_some_iff.mp found
  exact (Stream'.get_append_left index stream _ inside).trans isItem

/-- Behind the items of a stream an ending is handed out. -/
theorem handed_get_length (stream : List Item) :
    (handed stream).get stream.length = .ok (State.initial stream).ending :=
  Stream'.get_append_right 0 stream _

/-- An item that is no token, or an ending, is the last one before which all are plain. -/
theorem State.Plain.le {source : Stream' Item} {count index : Nat} (plain : Plain source count)
    (last : ∀ token, source.get index = .ok token → token.kind = .endOfInput) :
    count ≤ index := by
  by_contra further
  obtain ⟨token, given, visible⟩ := plain index (Nat.lt_of_not_le further)
  exact visible (last token given)

section Fault

variable {tokens : List Token} {fault : Fault}

/-- Tokens are handed out alike whether or not a fault follows them. -/
theorem handed_fault {index : Nat} (inside : index < tokens.length) :
    (handed (tokens.map Except.ok ++ [.error fault])).get index =
      (handed (tokens.map Except.ok)).get index := by
  have found : (tokens.map Except.ok)[index]? = some (.ok tokens[index] : Item) := by
    simp [inside]
  have again : (tokens.map Except.ok ++ [.error fault])[index]? =
      some (.ok tokens[index] : Item) := by
    rw [List.getElem?_append_left (by simpa using inside), found]
  rw [handed_get_of_lt found, handed_get_of_lt again]

/-- Behind the tokens the fault is handed out. -/
theorem handed_fault_length :
    (handed (tokens.map Except.ok ++ [.error fault])).get tokens.length = .error fault :=
  handed_get_of_lt (by simp)

/-- A parse of tokens that ends at one of them does not see whether a fault follows. -/
theorem items_fault_of_le (fault : Fault)
    (early : (Parse.tokens tokens).2.pulled ≤ tokens.length) :
    (items (tokens.map Except.ok ++ [.error fault])).1 = (Parse.tokens tokens).1 ∧
    (items (tokens.map Except.ok ++ [.error fault])).2.reductions =
      (Parse.tokens tokens).2.reductions := by
  have alike : ∀ index < (items (tokens.map Except.ok)).2.pulled,
      (handed (tokens.map Except.ok ++ [.error fault])).get index =
        (handed (tokens.map Except.ok)).get index :=
    fun index before => handed_fault (Nat.lt_of_lt_of_le before early)
  obtain ⟨after, ran, logged, _⟩ := items_repeat alike
  rw [ran]
  exact ⟨rfl, congrArg List.reverse logged⟩

/-- A parse of tokens that goes through all of them meets a fault that follows. -/
theorem items_fault_of_lt (late : tokens.length < (Parse.tokens tokens).2.pulled) :
    (items (tokens.map Except.ok ++ [.error fault])).1 = .error fault := by
  obtain ⟨_, index, newest, plain, stops⟩ := items_ends (tokens.map Except.ok ++ [.error fault])
  have bound : index ≤ tokens.length := plain.le fun token given => by
    rw [handed_fault_length] at given
    exact absurd given (by simp)
  rcases Nat.lt_or_eq_of_le bound with inside | rfl
  · -- If it ended before, the parse of the tokens alone would have ended there too.
    have alike : ∀ earlier < (items (tokens.map Except.ok ++ [.error fault])).2.pulled,
        (handed (tokens.map Except.ok)).get earlier =
          (handed (tokens.map Except.ok ++ [.error fault])).get earlier :=
      fun earlier before => (handed_fault (by omega)).symm
    obtain ⟨after, ran, _, same⟩ := items_repeat alike
    rw [Parse.tokens, ran, same, newest] at late
    omega
  · rw [handed_fault_length] at stops
    rcases found : (items (tokens.map Except.ok ++ [.error fault])).1 with refusal | program
    · rw [found] at stops
      have same : refusal = fault := stops
      rw [found, same]
    · rw [found] at stops
      obtain ⟨token, impossible, _⟩ := stops
      exact absurd impossible (by simp)

/-- A parse of tokens ends at one of them, or at the ending behind them. -/
theorem tokens_ends (tokens : List Token) :
    (∃ index token, (Parse.tokens tokens).2.pulled = index + 1 ∧ tokens[index]? = some token ∧
      EndsAt (.ok token) (Parse.tokens tokens).1) ∨
    ((Parse.tokens tokens).2.pulled = tokens.length + 1 ∧
      EndsAt (.ok (State.initial (tokens.map Except.ok)).ending) (Parse.tokens tokens).1) := by
  obtain ⟨_, index, newest, plain, ends⟩ := items_ends (tokens.map Except.ok)
  have ending : (handed (tokens.map Except.ok)).get tokens.length =
      .ok (State.initial (tokens.map Except.ok)).ending := by
    simpa using handed_get_length (tokens.map Except.ok)
  have bound : index ≤ tokens.length := plain.le fun token given => by
    rw [ending] at given
    rw [← Except.ok.inj given]
    rfl
  rcases Nat.lt_or_eq_of_le bound with inside | rfl
  · have given : (handed (tokens.map Except.ok)).get index = .ok tokens[index] :=
      handed_get_of_lt (by simp [inside])
    rw [given] at ends
    exact .inl ⟨index, tokens[index], newest, List.getElem?_eq_getElem inside, ends⟩
  · rw [ending] at ends
    exact .inr ⟨newest, ends⟩

end Fault

/-- A fault that is found at an ending is about the end of the input or about too many open
constructs. -/
theorem PlacedAt.cause {fault : Fault} {token : Token} (placed : PlacedAt fault token)
    (ends : token.kind = .endOfInput) :
    (∃ expected, fault.cause = .unexpectedEndOfInput expected) ∨
      fault.cause = .nestingTooDeep depthLimit.toUInt64 := by
  rcases placed with unexpected | tooDeep
  · rw [unexpected]
    exact .inl ⟨_, if_pos ends⟩
  · rw [tooDeep]
    exact .inr rfl

/-- Reading a source while it is parsed agrees with reading it before. A cursor gives the
items of the source whenever it is asked. If all of them are tokens, a parse of the source is
a parse of these. If the last one is a fault, a parse of the source reports what a parse of
the tokens before it finds at one of them, and otherwise this fault. -/
theorem source_first_fault (text : String) :
    (∀ count, (Cursor.start text).calls count =
      .ok ((List.range count).map ((Source.items text)[·]?))) ∧
    match Source.tokens text with
    | .ok tokens => Parse.source text = Parse.tokens tokens
    | .error fault => ∃ tokens : List Token,
        Source.items text = tokens.map Except.ok ++ [.error fault] ∧
        match (Parse.tokens tokens).1 with
        | .ok _ => (Parse.source text).1 = .error fault
        | .error found =>
          (∃ index token, (Parse.tokens tokens).2.pulled = index + 1 ∧
            tokens[index]? = some token ∧ PlacedAt found token ∧
            (Parse.source text).1 = .error found ∧
            (Parse.source text).2.reductions = (Parse.tokens tokens).2.reductions) ∨
          ((Parse.tokens tokens).2.pulled = tokens.length + 1 ∧
            PlacedAt found (State.initial (tokens.map Except.ok)).ending ∧
            ((∃ expected, found.cause = .unexpectedEndOfInput expected) ∨
              found.cause = .nestingTooDeep depthLimit.toUInt64) ∧
            (Parse.source text).1 = .error fault) := by
  refine ⟨Source.calls_start text, ?_⟩
  obtain ⟨tokens, lexical, ⟨last, _, shape, succeeds⟩ | ⟨fault, shape, fails⟩⟩ :=
    Source.tokens_outcome text
  · rw [succeeds, Parse.source, shape]
    rfl
  · rw [fails]
    refine ⟨tokens, shape, ?_⟩
    rw [Parse.source, shape]
    rcases tokens_ends tokens with ⟨index, token, newest, given, ends⟩ | ⟨newest, ends⟩
    · have inside : index < tokens.length := (List.getElem?_eq_some_iff.mp given).1
      have early : (Parse.tokens tokens).2.pulled ≤ tokens.length := by omega
      obtain ⟨same, logged⟩ := items_fault_of_le fault early
      rcases found : (Parse.tokens tokens).1 with refusal | program
      · rw [found] at ends same
        exact .inl ⟨index, token, newest, given, ends, same, logged⟩
      · rw [found] at ends
        obtain ⟨other, equal, isEnding⟩ := ends
        obtain rfl := Except.ok.inj equal
        exact absurd isEnding (lexical _ (List.mem_of_getElem? given)).visible
    · have met : (items (tokens.map Except.ok ++ [.error fault])).1 = .error fault :=
        items_fault_of_lt (by omega)
      rcases found : (Parse.tokens tokens).1 with refusal | program
      · rw [found] at ends
        exact .inr ⟨newest, ends, PlacedAt.cause ends rfl, met⟩
      · exact met

end StartEnd.Parse
