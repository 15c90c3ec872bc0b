import StartEnd.Proofs.Nesting.Closing
import StartEnd.Proofs.Parse.Rounds

/-!
# Parses end

The loops of a parse are led by the tables, and behind the last item the stream gives endings
without end. Still every parse ends, whatever the tables hold. A call that gives a value has
consumed tokens, and no endings. So a loop goes through fewer rounds than there are unread
items, and what would come behind that many rounds is never reached. Nor is what would come
inside of more constructs than may be open.

So the bounds on rounds and on open constructs in the definitions cut nothing off: unrolled
further, and with anything at the end, loops and constructs do the same.
-/

namespace StartEnd.Parse

/-- A call of a parser, with the value that it gives. -/
inductive Call : Type → Type where
  | statement : Call Stmt
  | body : Call Block
  | expr (place : BindingPower) : Call Expr
  | condition : Call StartEnd.Condition
  | assign : Call Assign
  | dataType : Call DataType
  | statementBy (handler : StatementHandler) : Call Stmt
  | leafBy (handler : LeafHandler) : Call Expr
  | operationBy (left : Expr) (power : BindingPower) (handler : OperatorHandler) : Call Expr

/-- The parser that a call runs. -/
def Call.run {α : Type} : Call α → Nested → Parse α
  | .statement => Parse.statement
  | .body => Nested.body
  | .expr place => fun inner => inner.expr place
  | .condition => fun inner => Parse.condition inner.expr
  | .assign => fun inner => Parse.assign inner.expr
  | .dataType => fun _ => Parse.dataType
  | .statementBy handler => fun inner => Parse.statementBy inner handler
  | .leafBy handler => fun inner => Parse.leafBy inner.expr handler
  | .operationBy left power handler => fun inner => Parse.operationBy inner.expr left power handler

/-- A call at a state, with room for the constructs that may still be opened there. -/
def Call.start {α : Type} (call : Call α) : Parse α := do call.run (← nested)

variable {α : Type} {bound : Nat} {inner twin : Nested}

/-- Every call runs a composition. -/
theorem Call.composed (call : Call α) :
    ∃ held form twin, Composed (fun _ => True) held form call.run twin := by
  cases call with
  | statement => exact ⟨_, _, _, statement_composed⟩
  | body => exact ⟨_, _, _, .body⟩
  | expr place => exact ⟨_, _, _, .expr place⟩
  | condition => exact ⟨_, _, _, condition_composed⟩
  | assign => exact ⟨_, _, _, assign_composed⟩
  | dataType => exact ⟨_, _, _, dataType_composed⟩
  | statementBy handler => exact ⟨_, _, _, statementBy_composed handler⟩
  | leafBy handler => exact ⟨_, _, _, leafBy_composed handler⟩
  | operationBy left power handler => exact ⟨_, _, _, operationBy_composed left power handler⟩

/-- Every call costs a token. -/
theorem Call.progresses (call : Call α) (progress : ProgressNested bound inner twin) :
    Progresses bound 1 (call.run inner) (call.run twin) := by
  cases call with
  | statement => exact statement_progresses progress
  | body => exact progress.body
  | expr place => exact progress.expr place
  | condition => exact condition_progresses progress.expr
  | assign => exact assign_progresses progress.expr
  | dataType => exact dataType_progresses
  | statementBy handler => exact statementBy_progresses progress handler
  | leafBy handler => exact leafBy_progresses progress.expr handler
  | operationBy left power handler => exact operationBy_progresses progress.expr left power handler

/-- Tokens that are no endings are consumed from the items that were looked at and from those of
the stream. -/
theorem State.Takes.isPrefix {before after : State} {tokens : List Token}
    (takes : before.Takes tokens after) : tokens.map Except.ok <+: before.upcoming := by
  refine List.prefix_iff_getElem?.mpr fun index bound => ?_
  have shown : before.view.get index = (tokens.map Except.ok)[index] := by
    rw [takes.view]
    exact Stream'.get_append_left index _ _ bound
  rw [List.getElem_map] at shown ⊢
  have inside : index < before.upcoming.length :=
    lt_upcoming_of_view shown (takes.visible _ (List.getElem_mem _))
  have given : before.view.get index = before.upcoming[index] :=
    Stream'.get_append_left index _ _ inside
  rw [List.getElem?_eq_getElem inside, ← given, shown]

/-! ## Constructs -/

/-- Parsers of constructs that go a number of constructs deep, with anything inside of these. -/
def Nested.unrolled (steps : Nat) (further : Nested) : Nat → Nested
  | 0 => further
  | levels + 1 =>
    let inner := unrolled steps further levels
    { steps := steps
      expr := exprBy steps inner.expr
      body := bodyBy inner
      branch := branchBy inner }

/-- They are the ones that are closed as the definitions close them. -/
theorem Nested.unrolled_eq (steps levels : Nat) (further : Nested) :
    Nested.unrolled steps further levels = Nested.closedBy leave steps further levels := by
  induction levels with
  | zero => rfl
  | succ levels inductionHypothesis =>
    simp only [Nested.unrolled, Nested.closedBy, inductionHypothesis]
    rfl

/-- A call at a state. -/
theorem Call.runOn_start (call : Call α) (state : State) :
    runOn call.start state = runOn (call.run (Nested.within
      (state.lookahead.length + state.stream.length + 1) (depthLimit - state.depth))) state := by
  simp only [start, nested, pending, runOn_bind, runOn_get, runOn_pure]

/-- As many rounds as there are items are more than are unread. -/
theorem unread_lt (state : State) :
    state.unread < state.lookahead.length + state.stream.length + 1 :=
  Nat.lt_succ_of_le (unread_le state)

/-- A call that gives a value has consumed tokens that are no endings. -/
theorem Call.takes (call : Call α) {state after : State} {value : α}
    (ran : runOn call.start state = (.ok value, after)) :
    ∃ tokens, tokens ≠ [] ∧ state.Takes tokens after := by
  rw [call.runOn_start] at ran
  obtain ⟨held, form, twin, composed⟩ := call.composed
  obtain ⟨tokens, takes, _⟩ := composed.gathers (within_gathers _ _) state value after
    state.nextKind_any ran
  have progress := within_progresses (unread_lt state) (unread_lt state)
    (depthLimit - state.depth)
  have cost := ((call.progresses progress) state (Nat.le_refl _)).2 value after ran
  refine ⟨tokens, ?_, takes⟩
  rintro rfl
  have none : after.unread + 0 = state.unread := takes.unread
  omega

/-- A call does not depend on the bounds on rounds and on open constructs, nor on what closing
does where no construct is open. -/
theorem Call.closedBy (call : Call α) (state : State) {close : Parse Unit}
    (closes : Closes close) (further : Nested) {steps levels : Nat}
    (rounds : state.unread < steps) (deep : depthLimit - state.depth < levels) :
    runOn (call.run (Nested.closedBy close steps further levels)) state =
      runOn call.start state := by
  obtain ⟨held, form, twin, composed⟩ := call.composed
  have full : depthLimit ≤ state.depth + (depthLimit - state.depth) := by omega
  have agrees := within_agrees_closedBy closes steps further deep
  rw [call.runOn_start,
    composed.agrees agrees (within_balanced _ _) state state.nextKind_any full]
  have progress := within_progresses (unread_lt state) rounds (depthLimit - state.depth)
  exact ((call.progresses progress) state (Nat.le_refl _)).1

/-- A call does not depend on the bounds on rounds and on open constructs. -/
theorem Call.unrolled (call : Call α) (state : State) (further : Nested) {steps levels : Nat}
    (rounds : state.unread < steps) (deep : depthLimit - state.depth < levels) :
    runOn (call.run (Nested.unrolled steps further levels)) state = runOn call.start state := by
  rw [Nested.unrolled_eq]
  exact call.closedBy state (fun _ _ => rfl) further rounds deep

/-- The parsers of constructs progress at a state with fewer unread items than rounds. -/
theorem within_progress {state : State} {steps : Nat} (rounds : state.unread < steps)
    (room : Nat) : ProgressNested state.unread (.within steps room) (.within steps room) :=
  within_progresses rounds rounds room

/-- Whatever the tables hold, a call that gives a value has consumed tokens that were looked at
or stood in the stream, and no endings. So every call comes to an end. It does the same with
further rounds for all loops and with anything inside of further constructs, and each loop does
the same with anything behind more rounds than there are unread items. -/
theorem calls_end (state : State) :
    (∀ (α : Type) (call : Call α) (value : α) (after : State),
      runOn call.start state = (.ok value, after) →
      ∃ tokens : List Token, tokens ≠ [] ∧ (∀ token ∈ tokens, token.kind ≠ .endOfInput) ∧
        tokens.map Except.ok <+: state.upcoming ∧
        state.view = tokens.map Except.ok ++ₛ after.view) ∧
    (∀ (α : Type) (call : Call α) (further : Nested) (steps levels : Nat),
      state.unread < steps → depthLimit - state.depth < levels →
      runOn (call.run (Nested.unrolled steps further levels)) state =
        runOn call.start state) ∧
    ∀ steps room count : Nat, state.unread < steps → state.unread < count →
      (∀ place further left layer,
        runOn ((operatorsRound (Nested.within steps room).expr place)^[count] further left layer)
            state =
          runOn (operators (Nested.within steps room).expr place steps left layer) state) ∧
      (∀ further,
        runOn ((statementsRound (Nested.within steps room))^[count] further) state =
          runOn (moreStatements (Nested.within steps room) steps) state) ∧
      ∀ further, runOn (parametersRound^[count] further) state =
        runOn (parametersWithin steps) state := by
  refine ⟨fun α call value after ran => ?_, fun α call further steps levels rounds deep =>
    call.unrolled state further rounds deep, fun steps room count enough rounds => ?_⟩
  · obtain ⟨tokens, present, takes⟩ := call.takes ran
    exact ⟨tokens, present, takes.visible, takes.isPrefix, takes.view⟩
  · have progress := within_progress enough room
    refine ⟨fun place further left layer => ?_, fun further => ?_, fun further => ?_⟩
    · rw [operators_eq_rounds]
      exact (operatorsRounds_progress progress.expr place enough rounds _ further left layer state
        (Nat.le_refl _)).1
    · rw [moreStatements_eq_rounds]
      exact (statementsRounds_progress progress enough rounds _ further state (Nat.le_refl _)).1
    · rw [parametersWithin_eq_rounds]
      exact (parametersRounds_progress enough rounds _ further state (Nat.le_refl _)).1

/-- A declaration, where the tables take every token for the beginning of one. -/
theorem calls_end_declaration :
    let tokens : List Token := [⟨.intWord, "int", {}⟩, ⟨.identifier, "x", {}⟩,
      ⟨.assignment, "=", {}⟩, ⟨.number, "1", {}⟩]
    let state : State := { stream := tokens.map Except.ok, tables :=
      { Tables.standard with statement := fun _ => some .declaration } }
    (runOn Call.statement.start state).1 = .ok (.declaration .int ⟨⟨"x"⟩, .number "1"⟩) ∧
    (∃ taken : List Token, taken ≠ [] ∧ taken.map Except.ok <+: state.upcoming) ∧
    (∀ further, runOn (Call.statement.run (Nested.unrolled 5 further 129)) state =
      runOn Call.statement.start state) ∧
    ∀ further, runOn (parametersRound^[5] further) state =
      runOn (parametersWithin 5) state := by
  intro tokens state
  have ran : (runOn Call.statement.start state).1 =
      .ok (.declaration .int ⟨⟨"x"⟩, .number "1"⟩) := by decide +kernel
  have few : state.unread < 5 := by decide
  have deep : depthLimit - state.depth < 129 := by decide
  clear_value state
  obtain ⟨progress, unrolled, loops⟩ := calls_end state
  obtain ⟨taken, present, _, front, _⟩ := progress _ _ _ _ (Prod.ext ran rfl)
  exact ⟨ran, ⟨taken, present, front⟩, fun further => unrolled _ _ further 5 129 few deep,
    (loops 5 0 5 few few).2.2⟩

end StartEnd.Parse
