import StartEnd.Proofs.Precedence.Arrangement
import StartEnd.Proofs.Reading.Program

/-!
# Expressions are parsed by precedence

The binding powers that drive the parser and the precedences of the operators are two
tables. They agree: on operands with operators between them, the parser of expressions
gives the one expression in which every operator holds its operands, and it consumes them
all and nothing else.

What a parse has consumed is told from what is ahead. The number of items ahead that are
no endings can be read off the view, so a view that has lost some tokens has lost as many
items.
-/

namespace StartEnd.Parse

open Concrete (Sequence)

namespace State

/-- A part of the view that reaches behind the stream shows all items that are unread. -/
theorem countP_take_view {state : State} {count : Nat} (far : state.upcoming.length ≤ count) :
    ((state.view.take count).countP fun item => item.toOption.all (·.kind ≠ .endOfInput)) =
      state.unread := by
  obtain ⟨more, rfl⟩ := Nat.exists_eq_add_of_le far
  have endings : ((Stream'.const (.ok state.ending : Item)).take more).countP
      (fun item => item.toOption.all (·.kind ≠ .endOfInput)) = 0 := by
    induction more with
    | zero => rfl
    | succ more inductionHypothesis =>
      rw [Stream'.take_succ, Stream'.tail_const, List.countP_cons,
        inductionHypothesis (Nat.le_add_right _ _)]
      rfl
  rw [view, ← Stream'.append_take, List.countP_append, endings, Nat.add_zero, unread]

/-- Tokens that are no endings and stand before what is ahead of another state were unread. -/
theorem unread_of_view {before after : State} {tokens : List Token}
    (split : before.view = tokens.map Except.ok ++ₛ after.view)
    (visible : ∀ token ∈ tokens, token.kind ≠ .endOfInput) :
    after.unread + tokens.length = before.unread := by
  let far := before.upcoming.length + after.upcoming.length
  have front : (tokens.map (Except.ok : Token → Item)).countP
      (fun item => item.toOption.all (·.kind ≠ .endOfInput)) = tokens.length := by
    rw [List.countP_map, List.countP_eq_length]
    intro token inside
    simpa [Except.toOption] using visible token inside
  have whole : (before.view.take ((tokens.map (Except.ok : Token → Item)).length + far)).countP
      (fun item => item.toOption.all (·.kind ≠ .endOfInput)) = before.unread :=
    countP_take_view (by omega)
  rw [split, ← Stream'.append_take, List.countP_append, front, countP_take_view (by omega)] at whole
  omega

end State

/-- What ends an expression is what is no operator. -/
theorem settles_lowest_iff (kind : Token.Kind) :
    Settles .lowest kind ↔ Operator.ofKind? kind = none := by
  cases kind <;> decide

/-- An operator is no ending. -/
theorem operator_kind_visible (operator : Operator) : operator.kind ≠ .endOfInput := by
  cases operator <;> decide

/-- No part of an expression is an ending. -/
theorem content_visible (expr : Concrete.Expr) :
    ∀ mark ∈ expr.content, mark.kind ≠ .endOfInput := by
  induction expr with
  | number digits => simp [Concrete.Expr.content]
  | symbol name => simp [Concrete.Expr.content]
  | group inner inductionHypothesis =>
    simpa [Concrete.Expr.content, raised, or_imp, forall_and] using inductionHypothesis
  | binary left operator right leftHypothesis rightHypothesis =>
    simp only [Concrete.Expr.content, raised, List.mem_append, List.mem_cons, List.mem_map]
    rintro mark (onLeft | rfl | ⟨lower, onRight, rfl⟩)
    · exact leftHypothesis mark onLeft
    · exact operator_kind_visible operator
    · exact rightHypothesis lower onRight

/-- The parser of expressions reads every expression that fits. -/
theorem nestedExpr_reads {depth : Nat} {expr : Concrete.Expr} (fits : expr.Fits) :
    Reads depth (do (← nested).expr .lowest) expr.marks (Settles .lowest) (· = expr.tree)
      (expr.rulesAt .lowest) := by
  have visible : ∀ mark ∈ expr.marks, mark.kind ≠ .endOfInput :=
    visible_raised_iff.mpr (content_visible expr)
  have reads : Reads depth (do (← nested).expr .lowest) (expr.marks ++ []) (Settles .lowest)
      (· = expr.tree) (expr.rulesAt .lowest) := by
    apply Reads.nested visible
    intro steps enough
    have room : expr.content.length ≤ steps := by simpa [Concrete.Expr.marks] using enough
    rw [List.append_nil]
    exact (within_reads steps (depthLimit - depth) depth rfl).expr .lowest expr fits
      expr.sitsAt_lowest room
  rwa [List.append_nil] at reads

/-- Without room for another construct no expression is parsed. -/
theorem nestedExpr_full {state : State} (full : depthLimit ≤ state.depth) (value : Expr)
    (after : State) : runOn (do (← nested).expr .lowest) state ≠ (.ok value, after) := by
  intro ran
  have unfolded : runOn (do (← nested).expr .lowest) state =
      runOn (tooDeep : Parse Expr) state := by
    simp only [nested, pending, runOn_bind, runOn_get, runOn_pure,
      Nat.sub_eq_zero_of_le full, Nested.within]
  rw [unfolded, tooDeep, runOn_bind] at ran
  rcases looked : runOn current state with ⟨fault | token, between⟩
  · simp [looked] at ran
  · simp [looked, runOn_throw] at ran

/-- On operands with operators between them, in front of anything that is no operator, the
parser of expressions gives the one expression that has them for its traversal and in which
every operator holds its operands, and it consumes exactly them. It does so if and only if
there is room for the constructs of that expression. -/
theorem expr_arranges (sequence : Sequence) (state : State) (tokens : List Token)
    (ahead : Stream' Token) (ready : state.Ready) (faces : state.Faces (tokens ++ₛ ahead))
    (written : tokens.map Token.lexeme = sequence.lexemes)
    (ended : Operator.ofKind? ahead.head.kind = none) :
    (∃! arranged : Concrete.Expr, arranged.Fits ∧ arranged.sequence = sequence) ∧
    ∀ arranged : Concrete.Expr, arranged.Fits → arranged.sequence = sequence →
      ((∃ value after, runOn (do (← nested).expr .lowest) state = (.ok value, after)) ↔
        state.depth + peak arranged.marks ≤ depthLimit) ∧
      ∀ value after, runOn (do (← nested).expr .lowest) state = (.ok value, after) →
        value = arranged.tree ∧ after.Faces ahead ∧
          after.unread + tokens.length = state.unread := by
  refine ⟨Concrete.Expr.existsUnique_sequence sequence, ?_⟩
  rintro arranged fits rfl
  have spelled : Spells tokens arranged.marks := by
    rw [Concrete.Expr.marks, spells_raised_iff]
    exact written.trans arranged.lexemes_content.symm
  have settles : Settles .lowest ahead.head.kind := (settles_lowest_iff _).mpr ended
  have visible : ∀ token ∈ tokens, token.kind ≠ .endOfInput :=
    spelled.visible_iff.mpr (visible_raised_iff.mpr (content_visible arranged))
  by_cases room : state.depth ≤ depthLimit
  · have outcome := nestedExpr_reads fits state tokens ahead ready rfl room faces spelled settles
    have fitting := overflow_eq_none_iff room spelled
    cases overflowed : overflow state.depth tokens arranged.marks with
    | none =>
      rw [overflowed] at outcome
      obtain ⟨value, after, ran, rfl, reached⟩ := outcome
      refine ⟨⟨fun _ => fitting.mp overflowed, fun _ => ⟨_, _, ran⟩⟩, ?_⟩
      intro other last again
      obtain ⟨same, rfl⟩ := Prod.mk.inj (ran.symm.trans again)
      refine ⟨(Except.ok.inj same).symm, reached.faces, State.unread_of_view ?_ visible⟩
      rw [faces, reached.faces, Stream'.map_append_stream]
    | some token =>
      rw [overflowed] at outcome
      obtain ⟨after, ran⟩ := outcome
      have failed : ∀ value last,
          runOn (do (← nested).expr .lowest) state ≠ (.ok value, last) := by
        intro value last again
        exact absurd (congrArg Prod.fst (ran.symm.trans again)) (by simp)
      refine ⟨⟨?_, fun fits => ?_⟩, fun value last again => absurd again (failed value last)⟩
      · rintro ⟨value, last, again⟩
        exact absurd again (failed value last)
      · exact absurd (fitting.mpr fits) (by simp [overflowed])
  · -- Too many constructs are open already, so no reading starts here.
    have full : depthLimit ≤ state.depth := Nat.le_of_not_le room
    refine ⟨⟨?_, fun fits => absurd (Nat.le_of_add_right_le fits) room⟩, ?_⟩
    · rintro ⟨value, after, ran⟩
      exact absurd ran (nestedExpr_full full value after)
    · intro value after ran
      exact absurd ran (nestedExpr_full full value after)

/-- The tokens `9 - 3 - 2 ** x ** (y) ;` are parsed up to the semicolon, with the differences
grouped to the left and the powers to the right. -/
theorem expr_arranges_chain :
    let tokens : List Token :=
      [⟨.number, "9", {}⟩, ⟨.dash, "-", {}⟩, ⟨.number, "3", {}⟩, ⟨.dash, "-", {}⟩,
        ⟨.number, "2", {}⟩, ⟨.starStar, "**", {}⟩, ⟨.identifier, "x", {}⟩,
        ⟨.starStar, "**", {}⟩, ⟨.openParen, "(", {}⟩, ⟨.identifier, "y", {}⟩,
        ⟨.closeParen, ")", {}⟩]
    let semicolon : Token := ⟨.semicolon, ";", {}⟩
    let state := State.initial ((tokens ++ [semicolon]).map Except.ok)
    let difference : Expr := .binary (.number "9") .sub (.number "3")
    let power : Expr :=
      .binary (.number "2") .pow (.binary (.symbol ⟨"x"⟩) .pow (.symbol ⟨"y"⟩))
    ∃ after, runOn (do (← nested).expr .lowest) state =
        (.ok (.binary difference .sub power), after) ∧
      after.unread + tokens.length = state.unread := by
  intro tokens semicolon state difference power
  let sequence : Sequence :=
    .more (.number "9") .sub (.more (.number "3") .sub (.more (.number "2") .pow
      (.more (.symbol ⟨"x"⟩) .pow (.single (.group (.single (.symbol ⟨"y"⟩)))))))
  have faces : state.Faces (tokens ++ₛ Stream'.cons semicolon (Stream'.const state.ending)) := by
    have all := initialAt_faces_all 0 (tokens ++ [semicolon])
    rwa [Stream'.append_append_stream] at all
  obtain ⟨_, exact⟩ := expr_arranges sequence state tokens _ ⟨rfl, Nat.le_refl _⟩ faces
    (by decide) rfl
  obtain ⟨succeeds, parsed⟩ := exact sequence.arranged sequence.fits_arranged
    sequence.sequence_arranged
  obtain ⟨value, after, ran⟩ := succeeds.mpr (by decide)
  obtain ⟨rfl, _, consumed⟩ := parsed value after ran
  exact ⟨after, ran, consumed⟩

end StartEnd.Parse
