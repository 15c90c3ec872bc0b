import StartEnd.Proofs.Kinds.Construct
import StartEnd.Proofs.Expectation.Program
import StartEnd.Proofs.Online.Source

/-!
# Programs are parsed by kinds

A parse decides by the kinds of tokens alone. Two lists of tokens of the same kinds are
parsed alike: the same productions are recognized, and either both lists are programs or both
are faulty. The texts of the second list go to the names and numbers of its program in the
order in which they stand in the list, each to one place, so its program is the first one with
other texts. A fault names the same kinds and stands at the same place of the list.

A list is read up to the first end-of-input token, so all of this is about the tokens before
that one.
-/

namespace StartEnd

/-- Tokens of the same kinds are the same without texts and places. -/
theorem Token.map_erased_congr {first second : List Token}
    (same : second.map Token.kind = first.map Token.kind) :
    second.map Token.erased = first.map Token.erased := by
  have byKind : Token.erased =
      (fun kind => if kind = .endOfInput then .ending {} else { kind := kind, value := "" }) ∘
        Token.kind := rfl
  rw [byKind, ← List.map_map, ← List.map_map, same]

/-- What a token is, apart from its place. -/
def Token.content (token : Token) : Token.Kind × String := (token.kind, token.value)

namespace Parse

variable {α : Type} {fact : Token.Kind → Prop} {form : Form α}

/-- The parsers of constructs have room for those that may still be opened. -/
theorem runOn_nested (state : State) :
    runOn nested state =
      (.ok (Nested.within (state.lookahead.length + state.stream.length + 1)
        (depthLimit - state.depth)), state) := by
  simp only [nested, pending, runOn_bind, runOn_get, runOn_pure]

/-- As many constructs fit, and loops have as many rounds, on tokens without texts. -/
theorem Mirrors.nested {second secondTwin : Nested → Parse α}
    (rest : ∀ steps room, Mirrors fact form (second (.within steps room))
      (secondTwin (.within steps room))) :
    Mirrors fact form (Parse.nested >>= second) (Parse.nested >>= secondTwin) := by
  intro state known
  have counts : state.erased.lookahead.length + state.erased.stream.length =
      state.lookahead.length + state.stream.length := by simp [State.erased]
  rw [runOn_bind, runOn_bind, runOn_nested, runOn_nested, counts]
  exact rest _ _ state known

/-- A body and the closing word of a program. -/
theorem endedBody_composed :
    Composed fact [] .block
      (fun inner => do let body ← inner.body; let _ ← expectBodyEnd .endWord; return body)
      (fun inner => do let body ← inner.body; let _ ← expectBodyEnd .endWord; return body) :=
  Composed.body.bind fun _ => (Composed.expectBodyEnd (by decide)).bind fun _ =>
    .pure (by simp) rfl

/-- Up to its closing word a program is parsed alike on tokens without texts. -/
theorem untilEnd_mirrors : Mirrors (fun _ => True) .block untilEnd untilEnd := by
  refine ((Composed.expectFixed (by decide)).mirrors (within_mirrors 0 0)).bind fun _ => ?_
  exact .nested fun steps room => endedBody_composed.mirrors (within_mirrors steps room)

/-- The end of the input is consumed, or another token is reported, alike without texts. -/
theorem expect_endOfInput_mirrors :
    Mirrors fact .token (expect .endOfInput) (expect .endOfInput) := by
  unfold expect
  rw [currentKind_bind]
  refine (Mirrors.peek 0).bind fun token => ?_
  rw [Form.token_erased, Token.kind_erased]
  split
  · exact .advance
  · refine (Mirrors.peek 0).bind fun next state _ => ?_
    rw [runOn_throw, runOn_throw]
    exact congrArg (fun fault => (Except.error fault, state.erased))
      (Fault.erased_unexpected next [.endOfInput]).symm

/-- A program is parsed alike on tokens without texts. -/
theorem program_mirrors : Mirrors (fun _ => True) .program program program := by
  rw [program_eq_untilEnd]
  exact untilEnd_mirrors.bind fun _ => expect_endOfInput_mirrors.bind fun _ _ _ => rfl

/-- Up to its closing word a program has the texts of the consumed tokens. -/
theorem untilEnd_gathers : Gathers (fun _ => True) [] .block untilEnd := by
  intro state body after known ran
  obtain ⟨token, middle, opening, ran⟩ := exists_of_bind ran
  obtain ⟨inner, counted, looked, ran⟩ := exists_of_bind ran
  obtain ⟨given, rfl⟩ := Prod.mk.inj ((runOn_nested middle).symm.trans looked)
  obtain rfl := Except.ok.inj given
  obtain ⟨front, takes, silent⟩ := (Composed.expectFixed (by decide)).gathers
    (within_gathers 0 0) state token middle known opening
  obtain ⟨others, further, texts⟩ := endedBody_composed.gathers (within_gathers _ _) middle body
    after middle.nextKind_any ran
  refine ⟨front ++ others, takes.append further, ?_⟩
  rw [openTexts_append, ← List.append_assoc, ← silent]
  exact texts

/-- A wanted token is next. -/
theorem next_of_expect {kind : Token.Kind} {state after : State} {token : Token}
    (ran : runOn (expect kind) state = (.ok token, after)) :
    ∃ next, state.view.head = .ok next ∧ next.kind = kind := by
  unfold expect at ran
  rw [currentKind_bind] at ran
  obtain ⟨next, looked, seen, ran⟩ := exists_of_bind ran
  split at ran
  case isTrue same => exact ⟨next, (view_peek seen).2, same⟩
  case isFalse _ =>
    obtain ⟨_, _, _, throws⟩ := exists_of_bind ran
    exact absurd throws runOn_throw_ne_ok

/-- A program has the texts of the tokens that are consumed in front of the end of the input. -/
theorem program_takes {state after : State} {value : Program}
    (ran : runOn program state = (.ok value, after)) :
    ∃ tokens middle last, state.Takes tokens middle ∧ middle.view.head = .ok last ∧
      last.kind = .endOfInput ∧ value.texts = openTexts tokens := by
  rw [program_eq_untilEnd] at ran
  obtain ⟨body, middle, content, ran⟩ := exists_of_bind ran
  obtain ⟨last, ended, closing, ran⟩ := exists_of_bind ran
  obtain ⟨given, -⟩ := Prod.mk.inj ran
  obtain ⟨tokens, takes, texts⟩ := untilEnd_gathers state body middle state.nextKind_any content
  obtain ⟨next, shown, ends⟩ := next_of_expect closing
  exact ⟨tokens, middle, next, takes, shown, ends, Except.ok.inj given ▸ texts⟩

/-- The tokens of a list that are consumed in front of an end-of-input token are those before
the first one. The induction is over the consumed tokens. -/
theorem beforeEnding_of_append {tokens front : List Token} {source rest : Stream' Item}
    {ending last : Token}
    (split : tokens.map Except.ok ++ₛ source = front.map Except.ok ++ₛ rest)
    (shown : source.head = .ok ending) (ends : ending.kind = .endOfInput)
    (next : rest.head = .ok last) (stops : last.kind = .endOfInput)
    (visible : ∀ token ∈ front, token.kind ≠ .endOfInput) : beforeEnding tokens = front := by
  induction front generalizing tokens with
  | nil =>
    rcases tokens with _ | ⟨token, others⟩
    · rfl
    · have same : (.ok token : Item) = .ok last := by
        rw [← next]
        exact congrArg Stream'.head split
      simp [beforeEnding, Except.ok.inj same, stops]
  | cons first others inductionHypothesis =>
    have isVisible := visible first List.mem_cons_self
    rcases tokens with _ | ⟨token, more⟩
    · have same : (.ok ending : Item) = .ok first := by
        rw [← shown]
        exact congrArg Stream'.head split
      exact absurd (Except.ok.inj same ▸ ends) isVisible
    · obtain ⟨same, tails⟩ := Stream'.cons_injective2 split
      obtain rfl := Except.ok.inj same
      have kept := inductionHypothesis tails fun token inside =>
        visible token (List.mem_cons_of_mem _ inside)
      simpa [beforeEnding, isVisible] using kept

section Tokens

variable {tokens first second : List Token} {program other : Program} {fault : Fault}

/-- The names and numbers of a program are those of its tokens, each of them once and in their
order. -/
theorem tokens_texts (parsed : (Parse.tokens tokens).1 = .ok program) :
    program.texts = openTexts (beforeEnding tokens) := by
  have ran : runOn Parse.program (.initial (tokens.map Except.ok)) =
      (.ok program, (Parse.tokens tokens).2) := Prod.ext parsed rfl
  obtain ⟨front, middle, last, takes, shown, ends, texts⟩ := program_takes ran
  rw [texts, beforeEnding_of_append takes.view rfl rfl shown ends takes.visible]

/-- A fault stands at the newest token that was asked for. -/
theorem tokens_fault_placed (failed : (Parse.tokens tokens).1 = .error fault) :
    PlacedAt fault (tokenAt tokens ((Parse.tokens tokens).2.pulled - 1)) := by
  rcases tokens_ends tokens with ⟨index, token, newest, given, ends⟩ | ⟨newest, ends⟩
  all_goals rw [failed] at ends
  all_goals rw [newest, Nat.add_sub_cancel, tokenAt, List.getD_eq_getElem?_getD]
  · rw [given]
    exact ends
  · rw [List.getElem?_eq_none (Nat.le_refl _)]
    exact ends

/-- Tokens of the same kinds are parsed alike, but for the texts. -/
theorem tokens_erased (same : second.map Token.kind = first.map Token.kind) :
    erasedOutcome .program (Parse.tokens second) = erasedOutcome .program (Parse.tokens first) := by
  have parsed (tokens : List Token) : erasedOutcome .program (Parse.tokens tokens) =
      runOn Parse.program (State.initial (tokens.map Except.ok)).erased :=
    (program_mirrors _ (State.nextKind_any _)).symm
  have alike : (State.initial (second.map Except.ok)).erased =
      (State.initial (first.map Except.ok)).erased := by
    have items (tokens : List Token) : (tokens.map Except.ok).map Item.erased =
        (tokens.map Token.erased).map (Except.ok : Token → Item) := by
      simp [Item.erased]
    simp [State.initial, State.erased, items, Token.map_erased_congr same]
  rw [parsed, parsed, alike]

/-- Tokens of the same kinds give the same productions. -/
theorem reductions_tokens (same : second.map Token.kind = first.map Token.kind) :
    (Parse.tokens second).2.reductions = (Parse.tokens first).2.reductions := by
  have states : (Parse.tokens second).2.erased = (Parse.tokens first).2.erased :=
    congrArg Prod.snd (tokens_erased same)
  simpa [State.erased, State.reductions] using congrArg State.log states

/-- Tokens of the same kinds give a value or a fault that differ in their texts only. -/
theorem results_tokens (same : second.map Token.kind = first.map Token.kind) :
    erasedResult .program (Parse.tokens second).1 =
      erasedResult .program (Parse.tokens first).1 :=
  congrArg Prod.fst (tokens_erased same)

/-- Programs of tokens of the same kinds differ in their texts only. -/
theorem relabel_tokens (same : second.map Token.kind = first.map Token.kind)
    (parsed : (Parse.tokens first).1 = .ok program)
    (alsoParsed : (Parse.tokens second).1 = .ok other) (rest : List String) :
    program.relabel (openTexts (beforeEnding second) ++ rest) = other := by
  have results := results_tokens same
  rw [parsed, alsoParsed] at results
  rw [← tokens_texts alsoParsed]
  exact Program.relabel_of_alike (Except.ok.inj results) rest

/-- Faults of tokens of the same kinds stand at the same index. -/
theorem faults_tokens {another : Fault} (same : second.map Token.kind = first.map Token.kind)
    (failed : (Parse.tokens first).1 = .error fault)
    (alsoFailed : (Parse.tokens second).1 = .error another) :
    another.cause.erased = fault.cause.erased ∧
      ∃ index, PlacedAt fault (tokenAt first index) ∧ PlacedAt another (tokenAt second index) := by
  have states : (Parse.tokens second).2.erased = (Parse.tokens first).2.erased :=
    congrArg Prod.snd (tokens_erased same)
  have asked : (Parse.tokens second).2.pulled = (Parse.tokens first).2.pulled := by
    simpa [State.erased] using congrArg State.pulled states
  have results := results_tokens same
  rw [failed, alsoFailed] at results
  have placed := tokens_fault_placed alsoFailed
  rw [asked] at placed
  exact ⟨congrArg Fault.cause (Except.error.inj results), _, tokens_fault_placed failed, placed⟩

/-- A parse is driven by kinds. Tokens of the same kinds give the same productions, and two
programs or two faults. The program of the second list is that of the first with the texts of
the names and numbers in the second list. These are all of them in front of the first
end-of-input token, in their order and each of them once. Two faults differ at most in the text
of a token, and stand at tokens of the same index. -/
theorem tokens_by_kinds (same : second.map Token.kind = first.map Token.kind) :
    (Parse.tokens second).2.reductions = (Parse.tokens first).2.reductions ∧
    match (Parse.tokens first).1, (Parse.tokens second).1 with
    | .ok program, .ok other =>
      other = program.relabel (openTexts second) ∧
      program.texts = openTexts (beforeEnding first) ∧
      other.texts = openTexts (beforeEnding second)
    | .error fault, .error other =>
      other.cause.erased = fault.cause.erased ∧
      ∃ index, PlacedAt fault (tokenAt first index) ∧ PlacedAt other (tokenAt second index)
    | _, _ => False := by
  refine ⟨reductions_tokens same, ?_⟩
  have results := results_tokens same
  rcases parsed : (Parse.tokens first).1 with fault | program
  all_goals rcases alsoParsed : (Parse.tokens second).1 with other | other
  · exact faults_tokens same parsed alsoParsed
  · rw [parsed, alsoParsed] at results
    exact absurd results (by simp [erasedResult])
  · rw [parsed, alsoParsed] at results
    exact absurd results (by simp [erasedResult])
  · obtain ⟨behind, prefixed⟩ : openTexts (beforeEnding second) <+: openTexts second :=
      ((List.takeWhile_prefix _).filter _).map _
    refine ⟨?_, tokens_texts parsed, tokens_texts alsoParsed⟩
    rw [← prefixed, relabel_tokens same parsed alsoParsed]

/-- A declaration with other names, another number and other places. -/
theorem tokens_by_kinds_declaration :
    let first : List Token := [⟨.startWord, "Start", {}⟩, ⟨.intWord, "int", {}⟩,
      ⟨.identifier, "a", {}⟩, ⟨.assignment, "=", {}⟩, ⟨.number, "1", {}⟩, ⟨.plus, "+", {}⟩,
      ⟨.identifier, "b", {}⟩, ⟨.endWord, "End", {}⟩]
    let second : List Token := [⟨.startWord, "", {}⟩, ⟨.intWord, "End", {}⟩,
      ⟨.identifier, "b", .point ⟨9, 2, 4⟩⟩, ⟨.assignment, "=", {}⟩, ⟨.number, "x", {}⟩,
      ⟨.plus, "-", {}⟩, ⟨.identifier, "", {}⟩, ⟨.endWord, "End", {}⟩]
    second.map Token.kind = first.map Token.kind ∧
    (Parse.tokens first).1 = .ok ⟨.cons (.declaration .int
      ⟨⟨"a"⟩, .binary (.number "1") .add (.symbol ⟨"b"⟩)⟩) .nil⟩ ∧
    (Parse.tokens second).1 = .ok ⟨.cons (.declaration .int
      ⟨⟨"b"⟩, .binary (.number "x") .add (.symbol ⟨""⟩)⟩) .nil⟩ := by
  intro first second
  have same : second.map Token.kind = first.map Token.kind := by decide
  have parsed : (Parse.tokens first).1 = .ok ⟨.cons (.declaration .int
      ⟨⟨"a"⟩, .binary (.number "1") .add (.symbol ⟨"b"⟩)⟩) .nil⟩ := by decide +kernel
  have texts : openTexts second = ["b", "x", ""] := by decide
  clear_value first second
  refine ⟨same, parsed, ?_⟩
  obtain ⟨_, alike⟩ := tokens_by_kinds same
  rw [parsed] at alike
  rcases alsoParsed : (Parse.tokens second).1 with other | other
  all_goals rw [alsoParsed] at alike
  · exact alike.elim
  · rw [alike.1, texts]
    rfl

/-- A name behind an end-of-input token is in no program. -/
theorem tokens_behind_ending_unread :
    let tokens : List Token := [⟨.startWord, "Start", {}⟩, ⟨.identifier, "x", {}⟩,
      ⟨.assignment, "=", {}⟩, ⟨.number, "1", {}⟩, ⟨.endWord, "End", {}⟩,
      ⟨.endOfInput, "EOF", {}⟩, ⟨.identifier, "y", {}⟩]
    ∃ program, (Parse.tokens tokens).1 = .ok program ∧ openTexts tokens = ["x", "1", "y"] ∧
      program.texts = ["x", "1"] :=
  ⟨⟨.cons (.assign ⟨⟨"x"⟩, .number "1"⟩) .nil⟩, by decide +kernel, by decide, by decide⟩

/-- The names and numbers that a parse reads depend on kinds and texts only. -/
theorem openTexts_beforeEnding_congr
    (same : second.map Token.content = first.map Token.content) :
    openTexts (beforeEnding second) = openTexts (beforeEnding first) := by
  have byContent (tokens : List Token) : openTexts (beforeEnding tokens) =
      (((tokens.map Token.content).takeWhile fun content => content.1 ≠ .endOfInput).filter
        (·.1.isOpen)).map Prod.snd := by
    rw [List.takeWhile_map, List.filter_map, List.map_map]
    rfl
  rw [byContent, byContent, same]

/-- The text at an index depends on texts only. -/
theorem value_tokenAt_congr (same : second.map Token.content = first.map Token.content)
    (index : Nat) : (tokenAt second index).value = (tokenAt first index).value := by
  have byContent (tokens : List Token) : (tokenAt tokens index).value =
      ((tokens.map Token.content).getD index (.endOfInput, "EOF")).2 := by
    simp only [tokenAt, List.getD_eq_getElem?_getD, List.getElem?_map]
    rcases tokens[index]? with _ | token <;> rfl
  rw [byContent, byContent, same]

/-- A fault that is found at a token shows no other text than that of the token. -/
theorem PlacedAt.relabel_cause {token : Token} (placed : PlacedAt fault token) :
    fault.cause.relabel token.value = fault.cause := by
  rcases placed with unexpected | tooDeep
  · rw [unexpected, Fault.unexpected]
    split <;> rfl
  · rw [tooDeep]
    rfl

/-- Tokens of the same kinds with the same texts are parsed with the same result, wherever they
stand: only the positions of faults differ. -/
theorem tokens_by_content (same : second.map Token.content = first.map Token.content) :
    (Parse.tokens second).1.mapError Fault.cause = (Parse.tokens first).1.mapError Fault.cause ∧
    (Parse.tokens second).2.reductions = (Parse.tokens first).2.reductions := by
  have kinds : second.map Token.kind = first.map Token.kind := by
    simpa [Function.comp_def, Token.content] using congrArg (List.map Prod.fst) same
  refine ⟨?_, reductions_tokens kinds⟩
  have results := results_tokens kinds
  rcases parsed : (Parse.tokens first).1 with fault | program
  all_goals rcases alsoParsed : (Parse.tokens second).1 with another | other
  · obtain ⟨alike, index, placed, alsoPlaced⟩ := faults_tokens kinds parsed alsoParsed
    -- What is left of a cause without the text is the same, and so is the text.
    have cause : another.cause = fault.cause := by
      rw [← placed.relabel_cause, ← alsoPlaced.relabel_cause, value_tokenAt_congr same index,
        ← Fault.Cause.relabel_relabel "" _ another.cause,
        ← Fault.Cause.relabel_relabel "" _ fault.cause]
      exact congrArg (Fault.Cause.relabel _) alike
    exact congrArg Except.error cause
  · rw [parsed, alsoParsed] at results
    exact absurd results (by simp [erasedResult])
  · rw [parsed, alsoParsed] at results
    exact absurd results (by simp [erasedResult])
  · have texts : openTexts (beforeEnding second) = program.texts := by
      rw [openTexts_beforeEnding_congr same, tokens_texts parsed]
    have again := relabel_tokens kinds parsed alsoParsed []
    rw [texts, Program.relabel_of_alike rfl] at again
    exact congrArg Except.ok again.symm

end Tokens

end Parse

end StartEnd
