import StartEnd.Proofs.Expectation.Statement
import StartEnd.Proofs.Grammar.Language
import StartEnd.Proofs.Parse.Rounds

/-!
# Faults at the first hopeless token

A parse of tokens faults at the first token with which no sentence begins, unless too many
constructs are open. The tokens before it begin a sentence, each kind that the fault names
would have gone on with it, and of the kinds that would have gone on only those are missing
that continue something complete.

That the fault could not come later is shown with a second parse: if a sentence began with
the tokens up to a hopeless one, a parse of that sentence would fault in the same way.
-/

namespace StartEnd

namespace Fault

/-- A fault at a token is not about open constructs. -/
theorem unexpected_ne_nestingTooDeep {token : Token} {expected : List Token.Kind} {limit : UInt64}
    {position : Position} : unexpected token expected ≠ ⟨.nestingTooDeep limit, position⟩ := by
  intro same
  have cause := congrArg Fault.cause same
  unfold unexpected at cause
  split at cause <;> simp at cause

end Fault

/-- Kinds with which a sentence begins. -/
def Viable (kinds : List Token.Kind) : Prop := ∃ rest, kinds ++ rest ∈ grammar.language

/-- A kind may stand behind others: the end of the input behind a sentence, and any other
kind where a sentence goes on with it. -/
def Admits (kinds : List Token.Kind) (kind : Token.Kind) : Prop :=
  if kind = .endOfInput then kinds ∈ grammar.language else Viable (kinds ++ [kind])

/-- No sentence has an end-of-input token. -/
theorem ending_not_mem_of_language {kinds : List Token.Kind} (sentence : kinds ∈ grammar.language) :
    .endOfInput ∉ kinds := by
  let tokens : List Token := kinds.map .bare
  have spelled : tokens.map Token.kind = kinds := Token.map_kind_bare kinds
  have visible := visible_of_derives (mem_language_iff_derives.mp (spelled ▸ sentence))
  intro inside
  rw [← spelled] at inside
  obtain ⟨token, member, isEnding⟩ := List.mem_map.mp inside
  exact visible token member isEnding

/-- What may be followed by some kind has no end-of-input token. -/
theorem Admits.visible {front : List Token} {kind : Token.Kind}
    (admits : Admits (front.map Token.kind) kind) : ∀ token ∈ front, token.kind ≠ .endOfInput := by
  intro token inside isEnding
  have member : .endOfInput ∈ front.map Token.kind := List.mem_map.mpr ⟨token, inside, isEnding⟩
  unfold Admits at admits
  split at admits
  · exact ending_not_mem_of_language admits member
  · obtain ⟨rest, sentence⟩ := admits
    refine ending_not_mem_of_language sentence (List.mem_append_left _ ?_)
    exact List.mem_append_left _ member

/-- What may be followed by a kind begins a sentence. -/
theorem Admits.viable {kinds : List Token.Kind} {kind : Token.Kind} (admits : Admits kinds kind) :
    Viable kinds := by
  unfold Admits at admits
  split at admits
  · exact ⟨[], by rwa [List.append_nil]⟩
  · obtain ⟨rest, sentence⟩ := admits
    exact ⟨kind :: rest, by simpa using sentence⟩

/-- Where a kind may follow, a sentence goes on with it, or an ending follows a sentence. Any
number of endings may stand behind. -/
theorem Admits.exists_sentence {front : List Token} {kind : Token.Kind}
    (admits : Admits (front.map Token.kind) kind) (size : Nat) :
    ∃ token more, token.kind = kind ∧ size ≤ (front ++ token :: more).length ∧
      Derives [.nonterminal .program] (beforeEnding (front ++ token :: more)) := by
  let last : Token := .bare .endOfInput
  have visible := admits.visible
  unfold Admits at admits
  split at admits
  case isTrue isEnding =>
    refine ⟨last, List.replicate size last, isEnding.symm, by simp; omega, ?_⟩
    rw [beforeEnding_of_visible visible rfl]
    exact mem_language_iff_derives.mp admits
  case isFalse other =>
    obtain ⟨rest, sentence⟩ := admits
    let token : Token := .bare kind
    let more : List Token := rest.map .bare
    have spelled : (front ++ token :: more).map Token.kind =
        front.map Token.kind ++ [kind] ++ rest := by
      rw [List.map_append, List.map_cons, Token.map_kind_bare, List.append_assoc]
      rfl
    have derives : Derives [.nonterminal .program] (front ++ token :: more) :=
      mem_language_iff_derives.mp (spelled ▸ sentence)
    refine ⟨token, more ++ last :: List.replicate size last, rfl, by simp; omega, ?_⟩
    have regrouped : front ++ token :: (more ++ last :: List.replicate size last) =
        (front ++ token :: more) ++ last :: List.replicate size last := by
      simp
    rw [regrouped, beforeEnding_of_visible (visible_of_derives derives) rfl]
    exact derives

namespace Parse

/-- The part of a program up to its closing word is expected. -/
theorem untilEndWithin_expects {steps more : Nat} (rounds : steps ≤ more) :
    Expects steps AnyKind [] (untilEndWithin steps) (untilEndWithin more)
      (Derives [.nonterminal .program]) [] := by
  apply Expects.produce .program
  refine Expects.expectNext (by decide) fun _ _ => ?_
  refine closedBody_expects (within_expects rounds depthLimit).body (by decide) fun _ _ _ => ?_
  exact Expects.finish (List.nil_subset _)

/-- A parse of tokens is one with enough rounds up to the closing word, and then the end of
the input. -/
theorem tokens_eq_untilEndWithin (tokens : List Token) :
    Parse.tokens tokens = runOn (do
        let body ← untilEndWithin tokens.length
        let _ ← expect .endOfInput
        reduce .program
        return ⟨body⟩) (.initial (tokens.map Except.ok)) :=
  items_eq_untilEndWithin (by rw [List.length_map])

/-- A missing token faults at the one that stands in its place. -/
theorem expect_faults {kind : Token.Kind} {state : State} {tokens : Stream' Token}
    (stands : state.Stands tokens) (other : tokens.head.kind ≠ kind) :
    ∃ after, runOn (expect kind) state = (.error (Fault.unexpected tokens.head [kind]), after) ∧
      after.pulled = state.consumed + 1 := by
  obtain ⟨looked, moves, ran⟩ := currentKind_moves stands
  obtain ⟨after, faults, pulled⟩ := unexpected_faults moves.stands
  refine ⟨after, ?_, pulled.trans (by rw [moves.consumed]; rfl)⟩
  unfold expect
  rw [ran, if_neg other, faults]

/-- The end-of-input token that follows some tokens. -/
def endingBehind (tokens : List Token) : Token := (State.initial (tokens.map Except.ok)).ending

/-- Before a parse all tokens are ahead, and then endings. -/
theorem initial_stands (tokens : List Token) :
    (State.initial (tokens.map Except.ok)).Stands
      (tokens ++ₛ Stream'.const (endingBehind tokens)) := by
  refine ⟨⟨rfl, Nat.le_refl _⟩, ?_, Nat.zero_le _⟩
  simp [State.Faces, State.view, State.upcoming, State.initial, endingBehind,
    Stream'.map_append_stream, Stream'.map_const]

/-- A sentence does not fault at a token. -/
theorem not_unexpected_of_sentence {tokens : List Token}
    (sentence : Derives [.nonterminal .program] (beforeEnding tokens)) (token : Token)
    (expected : List Token.Kind) :
    (Parse.tokens tokens).1 ≠ .error (Fault.unexpected token expected) := by
  obtain ⟨body, placed, spelled⟩ := exists_body_of_derives sentence
  obtain ⟨succeeds, fails⟩ := tokensAt_outcome (Nat.zero_le depthLimit) placed spelled
  rw [tokensAt_zero] at succeeds fails
  by_cases fits : 0 + peak body.programMarks ≤ depthLimit
  · rw [succeeds fits]
    simp
  · obtain ⟨position, faulted⟩ := fails (Nat.lt_of_not_le fits)
    rw [faulted]
    exact fun same => Fault.unexpected_ne_nestingTooDeep (Except.error.inj same).symm

/-- The token at an index, or the end-of-input token that follows the last one. -/
def tokenAt (tokens : List Token) (index : Nat) : Token := tokens.getD index (endingBehind tokens)

/-- A wanted ending of the input is found. -/
theorem expect_ending {state : State} {tokens : Stream' Token} (stands : state.Stands tokens)
    (isEnding : tokens.head.kind = .endOfInput) :
    ∃ after, runOn (expect .endOfInput) state = (.ok tokens.head, after) := by
  obtain ⟨looked, moves, ran⟩ := currentKind_moves stands
  obtain ⟨after, advanced, _, _⟩ := advance_faces moves.stands.ready moves.stands.faces
  refine ⟨after, ?_⟩
  unfold expect
  rw [ran, if_pos isEnding, advanced]

/-- A token is hopeless behind others: kinds are listed that may stand there, and a parse of
the given number of tokens that has another token there, of no kind that was asked for,
faults at it with the same list. -/
structure Hopeless (size : Nat) (front : List Token) (token : Token) (expected : List Token.Kind) :
    Prop where
  present : expected ≠ []
  increasing : expected.Pairwise fun left right => left.rank < right.rank
  admits : ∀ kind ∈ expected, Admits (front.map Token.kind) kind
  repeats : ∀ other more, (front ++ other :: more).length = size →
    Resembles (wanted expected) token other →
    (Parse.tokens (front ++ other :: more)).1 = .error (Fault.unexpected other expected)

/-- Where a token is hopeless for parses of any length, no other kind than one that was asked
for may stand. -/
theorem Hopeless.wanted_of_admits {size : Nat} {front : List Token} {token : Token}
    {expected : List Token.Kind} {kind : Token.Kind}
    (hopeless : ∀ more, size ≤ more → Hopeless more front token expected)
    (admits : Admits (front.map Token.kind) kind) : kind ≠ token.kind ∧ kind ∈ wanted expected := by
  -- A sentence goes on with the kind, and its parse would fault if the kind were not wanted.
  obtain ⟨other, more, rfl, long, sentence⟩ := admits.exists_sentence size
  have differs : ¬ Resembles (wanted expected) token other := fun resembles =>
    not_unexpected_of_sentence sentence _ _ ((hopeless _ long).repeats other more rfl resembles)
  exact ⟨fun same => differs (.inl same), Classical.byContradiction fun absent =>
    differs (.inr absent)⟩

/-- A kind that would have continued tokens to a sentence may stand behind them. -/
theorem Awaited.admits {front : List Token} {expected : List Token.Kind}
    (awaited : Awaited (Derives [.nonterminal .program]) front expected) {kind : Token.Kind}
    (listed : kind ∈ expected) : Admits (front.map Token.kind) kind := by
  obtain ⟨token, more, rfl, sentence⟩ := awaited.continues kind listed
  have visible : token.kind ≠ .endOfInput := visible_of_derives sentence token (by simp)
  unfold Admits
  rw [if_neg visible]
  exact ⟨more.map Token.kind, by simpa using mem_language_iff_derives.mpr sentence⟩

/-- Before a parse at most all tokens are unread. -/
theorem initial_unread_le (tokens : List Token) :
    (State.initial (tokens.map Except.ok)).unread ≤ tokens.length := by
  have bound : (State.initial (tokens.map Except.ok)).unread ≤
      (State.initial (tokens.map Except.ok)).upcoming.length :=
    List.countP_le_length
  simpa [State.upcoming, State.initial] using bound

/-- Before a parse a token stands behind those in front of it. -/
theorem initial_stands_behind (front : List Token) (token : Token) (more : List Token) :
    (State.initial ((front ++ token :: more).map Except.ok)).Stands (front ++ₛ
      Stream'.cons token (more ++ₛ Stream'.const (endingBehind (front ++ token :: more)))) := by
  have stands := initial_stands (front ++ token :: more)
  rwa [Stream'.append_append_stream, Stream'.cons_append_stream] at stands

section

variable {size : Nat} {front : List Token} {token : Token}

/-- A token is hopeless if every parse up to the closing word faults there. -/
theorem hopeless_of_awaited {expected : List Token.Kind}
    (awaited : Awaited (Derives [.nonterminal .program]) front expected)
    (repeats : ∀ (state : State) (others : Stream' Token), state.Stands (front ++ₛ others) →
      state.depth = 0 → Resembles (wanted expected) token others.head →
      ∃ last, runOn (untilEndWithin size) state =
        (.error (Fault.unexpected others.head expected), last)) :
    Hopeless size front token expected := by
  refine ⟨awaited.present, awaited.increasing, fun _ => awaited.admits, ?_⟩
  intro other more long resembles
  obtain ⟨last, ran⟩ := repeats _ _ (initial_stands_behind front other more) rfl resembles
  rw [tokens_eq_untilEndWithin, long, runOn_bind, ran]
  rfl

/-- A token behind a sentence is hopeless unless it is an ending. -/
theorem hopeless_of_sentence (visible : token.kind ≠ .endOfInput)
    (sentence : Derives [.nonterminal .program] front)
    (repeats : ∀ (state : State) (others : Stream' Token), state.Stands (front ++ₛ others) →
      state.depth = 0 →
      ∃ body last, runOn (untilEndWithin size) state = (.ok body, last) ∧ last.Stands others) :
    Hopeless size front token [.endOfInput] := by
  refine ⟨List.cons_ne_nil _ _, List.pairwise_singleton _ _, ?_, ?_⟩
  · intro kind isKind
    obtain rfl := List.mem_singleton.mp isKind
    exact mem_language_iff_derives.mpr sentence
  · intro other more long resembles
    obtain ⟨body, reached, ran, stands⟩ := repeats _ _ (initial_stands_behind front other more) rfl
    have otherVisible : other.kind ≠ .endOfInput := by
      rcases resembles with same | absent
      · rwa [same]
      · exact fun closes => absent (closes ▸ List.mem_append_left _ List.mem_cons_self)
    obtain ⟨last, faults, _⟩ := expect_faults stands otherVisible
    rw [tokens_eq_untilEndWithin, long, runOn_bind, ran]
    simp only [runOn_bind, faults]
    rfl

end

/-- A parse of tokens that faults stops at a hopeless token, or has too many constructs
open. -/
theorem tokens_stops {tokens : List Token} {fault : Fault} {after : State} {size : Nat}
    (parsed : Parse.tokens tokens = (.error fault, after)) (rounds : tokens.length ≤ size) :
    (∃ position, fault = ⟨.nestingTooDeep depthLimit.toUInt64, position⟩) ∨
    ∃ front rest expected, tokens ++ₛ Stream'.const (endingBehind tokens) = front ++ₛ rest ∧
      fault = Fault.unexpected rest.head expected ∧ after.pulled = front.length + 1 ∧
      Hopeless size front rest.head expected := by
  have fresh : (State.initial (tokens.map Except.ok)).consumed = 0 := rfl
  have outcome := untilEndWithin_expects rounds _ _ (initial_stands tokens)
    (initial_unread_le tokens) trivial
  rw [tokens_eq_untilEndWithin, runOn_bind] at parsed
  -- The fault is met before the closing word, or behind it where the input goes on.
  generalize runOn (untilEndWithin tokens.length) _ = result at outcome parsed
  rcases result with ⟨found | body, between⟩
  · obtain ⟨rfl, rfl⟩ : found = fault ∧ between = after := by simpa using parsed
    rcases outcome with tooDeep | ⟨front, rest, expected, split, same, pulled, awaited, _, repeats⟩
    · exact .inl tooDeep
    · rw [fresh, Nat.zero_add] at pulled
      exact .inr ⟨front, rest, expected, split, same, pulled, hopeless_of_awaited awaited repeats⟩
  · obtain ⟨front, rest, split, moves, sentence, _, repeats⟩ := outcome
    by_cases isEnding : rest.head.kind = .endOfInput
    · obtain ⟨last, ran⟩ := expect_ending moves.stands isEnding
      simp only [reduce, runOn_bind, ran, runOn_modify, runOn_pure] at parsed
      exact absurd (congrArg Prod.fst parsed) (by simp)
    · obtain ⟨last, ran, pulled⟩ := expect_faults moves.stands isEnding
      rw [moves.consumed, fresh, Nat.zero_add] at pulled
      obtain ⟨rfl, rfl⟩ : Fault.unexpected rest.head [.endOfInput] = fault ∧ last = after := by
        simpa [runOn_bind, ran] using parsed
      refine .inr ⟨front, rest, [.endOfInput], split, rfl, pulled, ?_⟩
      refine hopeless_of_sentence isEnding sentence
        fun state others stands depth => ⟨body, ?_⟩
      obtain ⟨reached, ran, moved⟩ := repeats state others stands depth (.inr List.not_mem_nil)
      exact ⟨reached, ran, moved.stands⟩

/-- Behind some tokens, and endings behind all of them, the token at the next index stands. -/
theorem head_eq_tokenAt {tokens front : List Token} {rest : Stream' Token}
    (split : tokens ++ₛ Stream'.const (endingBehind tokens) = front ++ₛ rest) :
    rest.head = tokenAt tokens front.length := by
  have here : (tokens ++ₛ Stream'.const (endingBehind tokens)).get front.length = rest.head := by
    rw [split]
    exact Stream'.get_append_length _ _
  rw [← here, tokenAt, List.getD_eq_getElem?_getD]
  by_cases inside : front.length < tokens.length
  · rw [Stream'.get_append_left _ _ _ inside, List.getElem?_eq_getElem inside, Option.getD_some]
  · obtain ⟨excess, behind⟩ := Nat.exists_eq_add_of_le (Nat.le_of_not_lt inside)
    rw [behind, Stream'.get_append_right, Stream'.get_const,
      List.getElem?_eq_none (Nat.le_add_right _ _), Option.getD_none]

/-- Before endings, tokens that are no endings are the first ones. -/
theorem eq_take_of_visible {tokens front : List Token} {rest : Stream' Token}
    (split : tokens ++ₛ Stream'.const (endingBehind tokens) = front ++ₛ rest)
    (visible : ∀ token ∈ front, token.kind ≠ .endOfInput) : front = tokens.take front.length := by
  have bound : front.length ≤ tokens.length := by
    by_contra beyond
    have inside : tokens.length < front.length := Nat.lt_of_not_le beyond
    have here : front[tokens.length] = endingBehind tokens := by
      rw [← Stream'.get_append_left _ _ rest inside, ← split]
      exact Stream'.get_append_length _ _
    exact visible _ (List.getElem_mem inside) (here ▸ rfl)
  calc front = (front ++ₛ rest).take front.length := by
        rw [Stream'.take_append_of_le_length _ _ _ (Nat.le_refl _), List.take_length]
    _ = tokens.take front.length := by
        rw [← split, Stream'.take_append_of_le_length _ _ _ bound]

/-- A token at an index that is no ending is one of the tokens. -/
theorem take_succ_of_visible {tokens : List Token} {index : Nat}
    (visible : (tokenAt tokens index).kind ≠ .endOfInput) :
    tokens.take (index + 1) = tokens.take index ++ [tokenAt tokens index] := by
  unfold tokenAt at visible ⊢
  rw [List.getD_eq_getElem?_getD] at visible ⊢
  rcases found : tokens[index]? with _ | token
  · rw [found] at visible
    exact absurd rfl visible
  · rw [List.take_add_one, found]
    rfl

/-- A fault of a parse of tokens is about the token of an index, the last one that the parse
has looked at. -/
structure FaultsAt (tokens : List Token) (fault : Fault) (index : Nat) : Prop where
  looked : (Parse.tokens tokens).2.pulled = index + 1
  about : fault = Fault.unexpected (tokenAt tokens index) fault.cause.expected

/-- A parse of tokens that faults stops at the token of an index, which is hopeless for
parses of any length, or has too many constructs open. -/
theorem tokens_faulted {tokens : List Token} {fault : Fault} {after : State}
    (parsed : Parse.tokens tokens = (.error fault, after)) :
    (∃ position, fault = ⟨.nestingTooDeep depthLimit.toUInt64, position⟩) ∨
    ∃ index, FaultsAt tokens fault index ∧ ∀ size, tokens.length ≤ size →
      Hopeless size (tokens.take index) (tokenAt tokens index) fault.cause.expected := by
  -- The index does not depend on the number of tokens, since it is read off the parse.
  have stopped : ∀ size, tokens.length ≤ size →
      (∃ position, fault = ⟨.nestingTooDeep depthLimit.toUInt64, position⟩) ∨
      ∃ index, FaultsAt tokens fault index ∧
        Hopeless size (tokens.take index) (tokenAt tokens index) fault.cause.expected := by
    intro size rounds
    rcases tokens_stops parsed rounds with tooDeep | ⟨front, rest, expected, split, same, pulled,
      hopeless⟩
    · exact .inl tooDeep
    · obtain ⟨kind, listed⟩ := List.exists_mem_of_ne_nil expected hopeless.present
      have taken := eq_take_of_visible split (hopeless.admits kind listed).visible
      have named : fault.cause.expected = expected := by rw [same, Fault.expected_unexpected]
      rw [head_eq_tokenAt split] at same hopeless
      refine .inr ⟨front.length, ⟨by rw [parsed, pulled], by rw [named, ← same]⟩, ?_⟩
      rwa [named, ← taken]
  rcases stopped _ (Nat.le_refl _) with tooDeep | ⟨index, faults, _⟩
  · exact .inl tooDeep
  · refine .inr ⟨index, faults, fun size rounds => ?_⟩
    rcases stopped size rounds with ⟨position, tooDeep⟩ | ⟨other, faultsAgain, hopeless⟩
    · exact absurd (faults.about.symm.trans tooDeep) Fault.unexpected_ne_nestingTooDeep
    · obtain rfl : other = index := Nat.succ.inj (faultsAgain.looked.symm.trans faults.looked)
      exact hopeless

/-- A fault of a parse is met as early as possible. The tokens before the one at which the
parse stops begin a sentence, but with this one they do not, or are none if it is an end of
the input. Only too many open constructs are found elsewhere. -/
theorem tokens_fault_earliest (tokens : List Token) :
    match (Parse.tokens tokens).1 with
    | .ok _ => True
    | .error fault =>
      (∃ position, fault = ⟨.nestingTooDeep depthLimit.toUInt64, position⟩) ∨
      ∃ index, FaultsAt tokens fault index ∧ Viable ((tokens.take index).map Token.kind) ∧
        if (tokenAt tokens index).kind = .endOfInput then
          (tokens.take index).map Token.kind ∉ grammar.language
        else ¬ Viable ((tokens.take (index + 1)).map Token.kind) := by
  rcases parsed : Parse.tokens tokens with ⟨fault | program, after⟩
  · rcases tokens_faulted parsed with tooDeep | ⟨index, faults, hopeless⟩
    · exact .inl tooDeep
    · have stuck := hopeless _ (Nat.le_refl _)
      obtain ⟨kind, listed⟩ := List.exists_mem_of_ne_nil _ stuck.present
      refine .inr ⟨index, faults, (stuck.admits kind listed).viable, ?_⟩
      have refused : ¬ Admits ((tokens.take index).map Token.kind) (tokenAt tokens index).kind :=
        fun admits => (Hopeless.wanted_of_admits hopeless admits).1 rfl
      unfold Admits at refused
      split
      case isTrue isEnding => rwa [if_pos isEnding] at refused
      case isFalse visible =>
        rw [if_neg visible] at refused
        rwa [take_succ_of_visible visible, List.map_append]
  · trivial

/-- The kinds that a fault names are listed in their order, and each of them may stand where
the parse stops. The kind that stands there is none of them. -/
theorem tokens_fault_sound (tokens : List Token) :
    match (Parse.tokens tokens).1 with
    | .ok _ => True
    | .error fault =>
      (∃ position, fault = ⟨.nestingTooDeep depthLimit.toUInt64, position⟩) ∨
      ∃ index, FaultsAt tokens fault index ∧ fault.cause.expected ≠ [] ∧
        (fault.cause.expected.Pairwise fun left right => left.rank < right.rank) ∧
        (tokenAt tokens index).kind ∉ fault.cause.expected ∧
        ∀ kind ∈ fault.cause.expected, Admits ((tokens.take index).map Token.kind) kind := by
  rcases parsed : Parse.tokens tokens with ⟨fault | program, after⟩
  · rcases tokens_faulted parsed with tooDeep | ⟨index, faults, hopeless⟩
    · exact .inl tooDeep
    · have stuck := hopeless _ (Nat.le_refl _)
      refine .inr ⟨index, faults, stuck.present, stuck.increasing, fun listed => ?_, stuck.admits⟩
      exact (Hopeless.wanted_of_admits hopeless (stuck.admits _ listed)).1 rfl
  · trivial

/-- Of the kinds that may stand where a parse stops, a fault leaves out only those that go on
with something complete, and perhaps the brace that opens the body of an `if`. -/
theorem tokens_fault_complete (tokens : List Token) :
    match (Parse.tokens tokens).1 with
    | .ok _ => True
    | .error fault =>
      (∃ position, fault = ⟨.nestingTooDeep depthLimit.toUInt64, position⟩) ∨
      ∃ index, FaultsAt tokens fault index ∧
        ∀ kind, Admits ((tokens.take index).map Token.kind) kind →
          kind ∈ fault.cause.expected ∨ kind ∈ omitted fault.cause.expected := by
  rcases parsed : Parse.tokens tokens with ⟨fault | program, after⟩
  · rcases tokens_faulted parsed with tooDeep | ⟨index, faults, hopeless⟩
    · exact .inl tooDeep
    · refine .inr ⟨index, faults, fun kind admits => List.mem_append.mp ?_⟩
      exact (Hopeless.wanted_of_admits hopeless admits).2
  · trivial

/-- A condition that is not closed faults behind its second operand and names the
parenthesis, but a sum would have gone on with the operand as well. -/
theorem tokens_fault_incomplete :
    let tokens : List Token := [.bare .startWord, .bare .ifWord, .bare .openParen,
      .bare .identifier, .bare .less, .bare .identifier, .bare .identifier, .bare .assignment,
      .bare .number, .bare .endWord]
    ∃ fault, (Parse.tokens tokens).1 = .error fault ∧ FaultsAt tokens fault 6 ∧
      Admits ((tokens.take 6).map Token.kind) .plus ∧ .plus ∉ fault.cause.expected := by
  intro tokens
  let sentence : List Token := [.bare .startWord, .bare .ifWord, .bare .openParen,
    .bare .identifier, .bare .less, .bare .identifier, .bare .plus, .bare .identifier,
    .bare .closeParen, .bare .identifier, .bare .assignment, .bare .number, .bare .endWord]
  have faults : (Parse.tokens tokens).1 =
      .error (Fault.unexpected (.bare .identifier) [.closeParen]) := by
    decide +kernel
  have accepted : (tokensAt 0 sentence).1.isOk = true := by decide +kernel
  refine ⟨_, faults, ⟨by decide +kernel, by decide +kernel⟩, ?_, by decide⟩
  rcases parsed : (tokensAt 0 sentence).1 with fault | program
  · rw [parsed] at accepted
    exact absurd accepted Bool.false_ne_true
  · exact ⟨_, mem_language_iff_derives.mpr (derives_of_parsed parsed)⟩

end Parse

end StartEnd
