import StartEnd.Proofs.Canonical.Nest
import StartEnd.Proofs.Canonical.Text
import StartEnd.Proofs.Concrete.Sentence
import StartEnd.Proofs.Lexing.Munch
import StartEnd.Proofs.Precedence.Expression
import StartEnd.Proofs.Replay.Derivation

/-!
# Canonical texts have the fewest parentheses

An expression can be written with more parentheses than its canonical text has, but not with
fewer. Whatever tokens the parser of expressions consumes, they write down a concrete form
of the expression that it gives, and in every concrete form that fits each operand that needs
parentheses has them. So a canonical text without one of its pairs of parentheses is no text
of the expression any more.
-/

namespace StartEnd

open Parse Replay

/-- The number of opening parentheses among tokens. -/
def openParens (tokens : List Token) : Nat := (tokens.map Token.kind).count .openParen

/-- Tokens in a row have the parentheses of both parts. -/
theorem openParens_append (front back : List Token) :
    openParens (front ++ back) = openParens front + openParens back := by
  rw [openParens, List.map_append, List.count_append]
  rfl

/-- The end of the input opens no parenthesis. -/
theorem openParens_ending {last : Token} (ends : last.kind = .endOfInput) (tokens : List Token) :
    openParens (tokens ++ [last]) = openParens tokens := by
  have none : openParens [last] = 0 := by
    rw [openParens, List.map_singleton, ends]
    rfl
  rw [openParens_append, none, Nat.add_zero]

namespace Concrete.Expr

/-- The number of pairs of parentheses in an expression. -/
def groups : Expr → Nat
  | number _ | symbol _ => 0
  | group inner => inner.groups + 1
  | binary left _ right => left.groups + right.groups

/-- Each pair of parentheses is opened by one mark. -/
theorem count_content (expr : Expr) :
    (expr.content.map (·.kind)).count .openParen = expr.groups := by
  have kinds (marks : List Mark) : (raised marks).map (·.kind) = marks.map (·.kind) := by
    simp [raised]
  induction expr with
  | number digits => rfl
  | symbol name => rfl
  | group inner inductionHypothesis =>
    simp [content, groups, kinds, inductionHypothesis]
  | binary left operator right leftHypothesis rightHypothesis =>
    have sign : operator.kind ≠ .openParen := by cases operator <;> decide
    simp [content, groups, kinds, leftHypothesis, rightHypothesis, sign]

/-- Tokens that write down an expression open its parentheses. -/
theorem openParens_of_spells {expr : Expr} {tokens : List Token}
    (spelled : Spells tokens expr.content) : openParens tokens = expr.groups := by
  rw [openParens, spelled.kinds, count_content]

/-- Parentheses around an expression are one pair more. -/
theorem groups_grouped (needed : Bool) (expr : Expr) :
    (expr.grouped needed).groups = expr.groups + needed.toNat := by
  cases needed <;> rfl

/-- The parentheses that the tree of an expression needs are among those that the expression
has. The induction keeps the pair around an operand in reserve for the one that the operand
needs. -/
theorem groups_concrete_le {expr : Expr} (fits : expr.Fits) :
    expr.tree.concrete.groups + expr.isGroup.toNat ≤ expr.groups := by
  induction expr with
  | number digits => exact Nat.le_refl _
  | symbol name => exact Nat.le_refl _
  | group inner inductionHypothesis =>
    have inside := inductionHypothesis fits
    simp only [tree, isGroup, groups, Bool.toNat_true]
    omega
  | binary left operator right leftHypothesis rightHypothesis =>
    obtain ⟨leftFits, rightFits, leftHeld, rightHeld⟩ := fits
    have onLeft := leftHypothesis leftFits
    have onRight := rightHypothesis rightFits
    have leftParens := needsParens_le_isGroup leftHeld
    have rightParens := needsParens_le_isGroup rightHeld
    simp only [tree, StartEnd.Expr.concrete, isGroup, groups, groups_grouped, Bool.toNat_false]
    omega

end Concrete.Expr

namespace Parse

/-- A state with nothing but tokens ahead faces them. -/
theorem State.Clean.exists_faces {state : State} (clean : state.Clean) :
    ∃ ahead, state.Faces ahead := by
  choose ahead shown using clean
  exact ⟨ahead, Stream'.ext shown⟩

/-- The parser of expressions gives the tree of what it consumes. -/
theorem exists_concrete_of_expr {state after : State} {value : Expr} (ready : state.Ready)
    (clean : state.Clean) (ran : runOn (do (← nested).expr .lowest) state = (.ok value, after)) :
    ∃ (tokens : List Token) (expr : Concrete.Expr), expr.Fits ∧ expr.tree = value ∧
      Spells tokens expr.content ∧ (∀ token ∈ tokens, token.kind ≠ .endOfInput) ∧
      state.view = tokens.map Except.ok ++ₛ after.view ∧
      after.consumed = state.consumed + tokens.length := by
  have replays : Replays state.unread Unknown [] (do (← nested).expr .lowest)
      (fun expr stack => stack = [.phrase .expr expr]) (fun _ => Settled .lowest) :=
    Replays.nested fun count room => (within_replays count room).expr .lowest
  have outcome := replays state [] ready (Nat.le_refl _) trivial
  rw [ran] at outcome
  obtain ⟨events, _, runs, plays, rfl, ⟨_, ⟨next, isNext, rfl⟩, settles⟩⟩ := outcome
  obtain ⟨expr, fits, _, spelled⟩ : WritesExpr .lowest (shifts events) :=
    writes_of_derives runs.derives
  obtain ⟨ahead, faces⟩ := (plays.clean clean).exists_faces
  have whole : state.Faces (shifts events ++ₛ ahead) := by
    rw [State.Faces, plays.view, faces, Stream'.map_append_stream]
  have head : ahead.head = next := by
    rw [faces] at isNext
    exact Except.ok.inj isNext
  have room : state.depth ≤ depthLimit := by
    by_contra full
    exact nestedExpr_full (Nat.le_of_not_le full) value after ran
  have reads := nestedExpr_reads fits state (shifts events) ahead ready rfl room whole
    (spells_raised_iff.mpr spelled) (head ▸ settles)
  have tree : expr.tree = value := by
    cases overflowed : overflow state.depth (shifts events) expr.marks with
    | none =>
      rw [overflowed] at reads
      obtain ⟨same, last, again, rfl, _⟩ := reads
      exact Except.ok.inj (congrArg Prod.fst (again.symm.trans ran))
    | some token =>
      rw [overflowed] at reads
      obtain ⟨last, again⟩ := reads
      exact absurd (congrArg Prod.fst (again.symm.trans ran)) (by simp)
  exact ⟨shifts events, expr, fits, tree, spelled, runs.visible, plays.view, plays.consumed clean⟩

/-- What the parser of expressions consumes has the parentheses that its expression needs. -/
theorem groups_le_of_expr {opened : Nat} {tokens : List Token} {value : Expr} {after : State}
    (ran : runOn (do (← nested).expr .lowest) (.initialAt opened (tokens.map Except.ok)) =
      (.ok value, after)) :
    value.concrete.groups ≤ openParens (tokens.take after.consumed) := by
  have clean : (State.initialAt opened (tokens.map Except.ok)).Clean :=
    fun index => ⟨_, (initialAt_faces_all opened tokens).get index⟩
  obtain ⟨read, expr, fits, rfl, spelled, visible, split, consumed⟩ :=
    exists_concrete_of_expr ⟨rfl, Nat.le_refl _⟩ clean ran
  obtain ⟨others, items, _⟩ := exists_append_of_view rfl visible split.symm
  obtain ⟨back, whole, _⟩ := exists_append_of_items items
  have counted : after.consumed = 0 + read.length := consumed
  rw [counted, Nat.zero_add, whole, List.take_left,
    Concrete.Expr.openParens_of_spells spelled]
  exact Nat.le_of_add_right_le (Concrete.Expr.groups_concrete_le fits)

end Parse

/-- Opening parentheses are tokens of their own, and no other token has one. -/
theorem Classified.count_paren {value : String} {kind : Token.Kind}
    (classified : Classified value kind) :
    value.toList.count '(' = [kind].count .openParen := by
  have noPart (parts : ∀ character ∈ value.toList, isWordPart character = true) :
      value.toList.count '(' = 0 := by
    apply List.count_eq_zero_of_not_mem
    intro member
    exact absurd (parts _ member) (by decide)
  rcases classified with
    ⟨isWord, ⟨isReserved, _⟩ | ⟨rfl, _⟩⟩ | ⟨isNumeral, rfl⟩ | ⟨isSign, spelled⟩
  · have word : ∀ kind ∈ Token.Kind.reserved, [kind].count .openParen = 0 := by decide
    rw [word kind isReserved]
    exact noPart isWord.isWordPart
  · exact noPart isWord.isWordPart
  · exact noPart fun character member => isWordPart_of_isDigit (isNumeral.2 character member)
  · have sign : ∀ kind ∈ signs, kind.characters.count '(' = [kind].count .openParen := by decide
    have same : kind.characters = value.toList := by simp [Token.Kind.characters, spelled]
    rw [← same]
    exact sign kind isSign

/-- Reading a text by maximal munch gives as many opening parentheses as the text has. -/
theorem Munches.openParens_eq {text : List Char} {tokens : List Token}
    (munches : Munches text tokens) : openParens tokens = text.count '(' := by
  have noBlank {gap : List Char} (isBlank : ∀ character ∈ gap, Text.isBlank character = true) :
      gap.count '(' = 0 := by
    apply List.count_eq_zero_of_not_mem
    intro member
    exact absurd (isBlank _ member) (by decide)
  induction munches with
  | nil isBlank => rw [noBlank isBlank]; rfl
  | @cons gap rest token tokens isBlank munch others inductionHypothesis =>
    rw [List.count_append, List.count_append, noBlank isBlank, munch.classified.count_paren,
      ← inductionHypothesis, Nat.zero_add]
    exact openParens_append [token] tokens

/-- A source whose characters are all of the language is read as tokens with its opening
parentheses. -/
theorem Source.items_of_native {source : String}
    (native : ∀ character ∈ source.toList, ∀ behind, Native character behind) :
    ∃ tokens : List Token, Source.items source = tokens.map Except.ok ∧
      openParens tokens = source.toList.count '(' := by
  have delivers := items_delivers source
  cases delivers.native with
  | inl faulted =>
    obtain ⟨_, front, character, rest, _, split, _, foreign, _⟩ := faulted
    have member : character ∈ source.toList := by simp [split]
    exact absurd (native character member rest) foreign
  | inr read =>
    obtain ⟨tokens, last, items, _, munches⟩ := read
    obtain ⟨_, final, shape, _, ends⟩ := delivers.shape
    have isLast : .ok last = final := by
      rw [items, List.map_append] at shape
      exact List.cons.inj (List.append_inj' shape rfl).2 |>.1
    refine ⟨tokens ++ [last], items, ?_⟩
    rw [openParens_ending (ends last isLast.symm), munches.openParens_eq]

/-- The canonical text of an expression has no character that is not of the language. -/
theorem Expr.native_canonical {expr : Expr} (wellFormed : expr.WellFormed) :
    ∀ character ∈ expr.canonical.toList, ∀ behind, Native character behind := by
  have sign (character : Char) (listed : character ∈ ' ' :: signCharacters) (behind : List Char) :
      Native character behind := by
    cases List.mem_cons.mp listed with
    | inl space => exact .inr (.inr (.inl (by rw [space]; decide)))
    | inr isSign => exact .inr (.inr (.inr (.inl isSign)))
  induction expr with
  | number digits =>
    intro character member behind
    exact native_of_isWordPart (isWordPart_of_isDigit (wellFormed.2 character member)) behind
  | symbol name =>
    intro character member behind
    exact native_of_isWordPart (wellFormed.1.isWordPart character member) behind
  | binary left operator right leftHypothesis rightHypothesis =>
    have enclosed {text : String} (needed : Bool)
        (native : ∀ character ∈ text.toList, ∀ behind, Native character behind) :
        ∀ character ∈ (parenthesized needed text).toList, ∀ behind, Native character behind := by
      cases needed with
      | false => exact native
      | true =>
        intro character member
        have cases : character = '(' ∨ character ∈ text.toList ∨ character = ')' := by
          simpa [parenthesized] using member
        obtain rfl | inside | rfl := cases
        · exact sign _ (by decide)
        · exact native character inside
        · exact sign _ (by decide)
    have symbol : ∀ character ∈ operator.symbol.toList, character ∈ ' ' :: signCharacters := by
      have listed : (operator.symbol.toList.all (· ∈ ' ' :: signCharacters)) = true := by
        cases operator <;> decide
      simpa only [List.all_eq_true, decide_eq_true_eq] using listed
    intro character member
    simp only [canonical, String.toList_append, List.mem_append] at member
    obtain (((inLeft | space) | inSymbol) | space) | inRight := member
    · exact enclosed _ (leftHypothesis wellFormed.1) character inLeft
    · exact sign _ (List.mem_cons.mpr (.inl (by simpa using space)))
    · exact sign _ (symbol character inSymbol)
    · exact sign _ (List.mem_cons.mpr (.inl (by simpa using space)))
    · exact enclosed _ (rightHypothesis wellFormed.2) character inRight

/-- The canonical text of an expression is read as tokens that write down its concrete
form. -/
theorem Expr.items_canonical {expr : Expr} (wellFormed : expr.WellFormed) :
    ∃ (tokens : List Token) (last : Token),
      Source.items expr.canonical = (tokens ++ [last]).map Except.ok ∧
      Spells tokens expr.concrete.content ∧ last.kind = .endOfInput := by
  have lexes := Expr.writing wellFormed [] [] (by simp) .nil
  rw [List.append_nil, List.append_nil] at lexes
  obtain ⟨tokens, last, delivered, spelled, _, ends⟩ := items_of_lexes lexes
  exact ⟨tokens, last, delivered, spelled, ends⟩

/-- The canonical text of an expression has the parentheses of its concrete form. -/
theorem Expr.count_canonical {expr : Expr} (wellFormed : expr.WellFormed) :
    expr.canonical.toList.count '(' = expr.concrete.groups := by
  obtain ⟨tokens, last, delivered, spelled, ends⟩ := Expr.items_canonical wellFormed
  obtain ⟨same, again, count⟩ := Source.items_of_native (Expr.native_canonical wellFormed)
  have equal := List.map_injective_iff.mpr (fun _ _ => Except.ok.inj)
    (delivered.symm.trans again)
  rw [← count, ← equal, openParens_ending ends, Concrete.Expr.openParens_of_spells spelled]

/-- A text that is read as an expression has the parentheses that the expression needs. -/
theorem Parse.groups_le_count {source : String} {value : Expr} {after : State}
    (native : ∀ character ∈ source.toList, ∀ behind, Native character behind)
    (ran : runOn (do (← nested).expr .lowest) (.initial (Source.items source)) =
      (.ok value, after)) :
    value.concrete.groups ≤ source.toList.count '(' := by
  obtain ⟨tokens, items, count⟩ := Source.items_of_native native
  rw [items] at ran
  calc value.concrete.groups
      ≤ openParens (tokens.take after.consumed) := @groups_le_of_expr 0 _ _ _ ran
    _ ≤ openParens tokens := ((List.take_sublist _ _).map Token.kind).count_le _
    _ = source.toList.count '(' := count

/-- The parser of expressions reads the concrete form of an expression to its end, if there
is room for the constructs that it needs. -/
theorem Parse.expr_of_concrete {expr : Expr} {tokens : List Token} {last : Token}
    (spelled : Spells tokens expr.concrete.content) (ends : last.kind = .endOfInput)
    (fits : expr.nest ≤ depthLimit) :
    ∃ after, runOn (do (← nested).expr .lowest)
        (.initial ((tokens ++ [last]).map Except.ok)) = (.ok expr, after) ∧
      after.unread = 0 := by
  let state := State.initial ((tokens ++ [last]).map Except.ok)
  have marks : Spells tokens expr.concrete.marks := spells_raised_iff.mpr spelled
  have visible : ∀ token ∈ tokens, token.kind ≠ .endOfInput :=
    spelled.visible_iff.mpr (content_visible expr.concrete)
  have faces : state.Faces (tokens ++ₛ ([last] ++ₛ Stream'.const state.ending)) := by
    have all := initialAt_faces_all 0 (tokens ++ [last])
    rwa [Stream'.append_append_stream] at all
  have reads := @nestedExpr_reads 0 _ expr.fits_concrete state tokens _ ⟨rfl, Nat.le_refl _⟩ rfl
    (Nat.zero_le _) faces marks (ends ▸ (by decide : Settles .lowest .endOfInput))
  have fitting : overflow 0 tokens expr.concrete.marks = none := by
    rw [overflow_eq_none_iff (Nat.zero_le _) marks, Expr.peak_concrete, Nat.zero_add]
    exact fits
  rw [fitting] at reads
  obtain ⟨_, after, ran, rfl, reached⟩ := reads
  rw [Expr.tree_concrete] at ran
  refine ⟨after, ran, ?_⟩
  have consumed : after.unread + tokens.length = state.unread := by
    apply State.unread_of_view _ visible
    rw [faces, reached.faces, Stream'.map_append_stream]
  have counted : state.unread = tokens.length := by
    have shown : tokens.countP (fun token => token.kind ≠ .endOfInput) = tokens.length :=
      List.countP_eq_length.mpr fun token inside => by simpa using visible token inside
    simpa [state, State.unread, State.upcoming, State.initial, List.countP_map,
      Function.comp_def, Except.toOption, ends] using shown
  omega

/-- The canonical text of an expression that can be written has the fewest parentheses. It
is read as the expression if there is room for its constructs. Whatever tokens the parser of
expressions consumes to give the expression, there are at least as many opening parentheses
among them, and the canonical text without an opening and a closing parenthesis is not read
as the expression. -/
theorem Expr.canonical_fewest_parens (expr : Expr) (wellFormed : expr.WellFormed) :
    ∃ rendered, Source.tokens expr.canonical = .ok rendered ∧
      (expr.nest ≤ depthLimit → ∃ after,
        runOn (do (← nested).expr .lowest) (.initial (rendered.map Except.ok)) =
          (.ok expr, after) ∧ after.unread = 0) ∧
      (∀ (opened : Nat) (tokens : List Token) (after : State),
        runOn (do (← nested).expr .lowest) (.initialAt opened (tokens.map Except.ok)) =
            (.ok expr, after) →
          openParens rendered ≤ openParens (tokens.take after.consumed)) ∧
      ∀ front inner back, expr.canonical.toList = front ++ '(' :: (inner ++ ')' :: back) →
        ∀ after, runOn (do (← nested).expr .lowest)
          (.initial (Source.items (String.ofList (front ++ (inner ++ back))))) ≠
            (.ok expr, after) := by
  obtain ⟨tokens, last, delivered, spelled, ends⟩ := Expr.items_canonical wellFormed
  have counted : openParens (tokens ++ [last]) = expr.concrete.groups := by
    rw [openParens_ending ends, Concrete.Expr.openParens_of_spells spelled]
  refine ⟨tokens ++ [last], Source.tokens_of_items delivered, Parse.expr_of_concrete spelled ends,
    ?_, ?_⟩
  · intro opened others after ran
    rw [counted]
    exact groups_le_of_expr ran
  · intro front inner back split after ran
    have native : ∀ character ∈ (String.ofList (front ++ (inner ++ back))).toList,
        ∀ behind, Native character behind := by
      intro character member
      apply Expr.native_canonical wellFormed
      rw [String.toList_ofList] at member
      simp only [split, List.mem_append, List.mem_cons] at member ⊢
      tauto
    have needed := Parse.groups_le_count native ran
    have removed : expr.canonical.toList.count '(' =
        (front ++ (inner ++ back)).count '(' + 1 := by
      simp [split]
      omega
    rw [String.toList_ofList, ← Expr.count_canonical wellFormed] at needed
    omega

/-- A difference in a difference keeps its parentheses, because without them the differences
group the other way. -/
theorem Expr.canonical_fewest_parens_difference :
    let expr : Expr :=
      .binary (.symbol ⟨"a"⟩) .sub (.binary (.symbol ⟨"b"⟩) .sub (.symbol ⟨"c"⟩))
    expr.canonical = "a - (b - c)" ∧
    ∀ after, runOn (do (← nested).expr .lowest) (.initial (Source.items "a - b - c")) ≠
      (.ok expr, after) := by
  intro expr
  have wellFormed : expr.WellFormed := by decide +kernel
  have written : expr.canonical = "a - (b - c)" := by decide +kernel
  obtain ⟨_, _, _, _, shorter⟩ := Expr.canonical_fewest_parens expr wellFormed
  have split : expr.canonical.toList = "a - ".toList ++ '(' :: ("b - c".toList ++ ')' :: []) := by
    rw [written]
    decide
  have joined : String.ofList ("a - ".toList ++ ("b - c".toList ++ [])) = "a - b - c" := by decide
  have apart := shorter _ _ _ split
  rw [joined] at apart
  exact ⟨written, apart⟩

end StartEnd
