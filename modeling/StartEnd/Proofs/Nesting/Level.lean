import StartEnd.Proofs.Parse.Termination

/-!
# A call ends at the level where it began

A parser opens and closes constructs around its content, while a fault may end the content
anywhere. So how many constructs are open behind a call is the same as before if it gives a
value. If it faults, those that were opened in it stay open, and there are never more of them
than may be open at once.

No call closes a construct where none is open, so that closing never has to make up for a
construct too many. A call does the same with any other way to close, as long as it closes the
constructs that are open.
-/

namespace StartEnd.Parse

variable {α : Type}

/-- Behind a value as many constructs are open as were opened before, and behind a fault as many
or more, up to the limit. -/
def Level (opened : Nat) : Except Fault α × State → Prop
  | (.ok _, after) => after.depth = opened
  | (.error _, after) => opened ≤ after.depth ∧ after.depth ≤ depthLimit

/-- Behind a value the level is the one before. -/
theorem Level.depth_eq {opened : Nat} {result : Except Fault α × State} {value : α}
    (level : Level opened result) (given : result.1 = .ok value) : result.2.depth = opened := by
  obtain ⟨outcome, after⟩ := result
  subst given
  exact level

/-- Behind a fault the level is the one before, or higher, up to the limit. -/
theorem Level.depth_within {opened : Nat} {result : Except Fault α × State} {fault : Fault}
    (level : Level opened result) (refused : result.1 = .error fault) :
    opened ≤ result.2.depth ∧ result.2.depth ≤ depthLimit := by
  obtain ⟨outcome, after⟩ := result
  subst refused
  exact level

/-- What is composed of parsers at a level ends at the level. -/
theorem Composed.level {held : List String} {form : Form α} {parser twin : Nested → Parse α}
    (composed : Composed (fun _ => True) held form parser twin) (steps room : Nat)
    {state : State} (bounded : state.depth ≤ depthLimit) :
    Level state.depth (runOn (parser (Nested.within steps room)) state) := by
  have balanced := within_balanced steps room
  rcases ran : runOn (parser (Nested.within steps room)) state with ⟨fault | value, after⟩
  · exact composed.rises (within_rises steps room) balanced state fault after
      state.nextKind_any bounded ran
  · exact composed.balanced balanced state value after state.nextKind_any ran

/-- Whatever the tables and the stream hold, a call at a state where no more constructs are open
than may be leaves as many open when it gives a value. When it faults it leaves as many or more,
up to the limit. The same holds of the word for a data type. No call closes a construct where
none is open: it does the same if anything else happens there. -/
theorem calls_level (state : State) (bounded : state.depth ≤ depthLimit) :
    (∀ (α : Type) (call : Call α), Level state.depth (runOn call.start state)) ∧
    Level state.depth (runOn dataTypeKeyword state) ∧
    ∀ close : Parse Unit,
      (∀ opened : State, 0 < opened.depth → runOn close opened = runOn leave opened) →
      ∀ (α : Type) (call : Call α) (further : Nested) (steps levels : Nat),
        state.unread < steps → depthLimit - state.depth < levels →
        runOn (call.run (Nested.closedBy close steps further levels)) state =
          runOn call.start state := by
  constructor
  · intro α call
    obtain ⟨held, form, twin, composed⟩ := call.composed
    rw [call.runOn_start]
    exact composed.level _ _ bounded
  constructor
  · exact dataTypeKeyword_composed.level 0 0 bounded
  · intro close closes α call further steps levels rounds deep
    exact call.closedBy state closes further rounds deep

/-- One construct may still be opened. An assignment of a number opens and closes it, and it
never closes one where none is open. An assignment with parentheses faults inside of it. -/
theorem calls_level_full :
    let name : Token := ⟨.identifier, "x", {}⟩
    let sign : Token := ⟨.assignment, "=", {}⟩
    let number : Token := ⟨.number, "1", {}⟩
    let before (tokens : List Token) : State :=
      { stream := tokens.map Except.ok, tables := .standard, depth := 127 }
    let flat := before [name, sign, number]
    let grouped := before [name, sign, ⟨.openParen, "(", {}⟩, number, ⟨.closeParen, ")", {}⟩]
    let close : Parse Unit := do
      if (← get).depth = 0 then throw ⟨.nestingTooDeep 0, {}⟩ else leave
    (runOn Call.assign.start flat).1 = .ok ⟨⟨"x"⟩, .number "1"⟩ ∧
    (runOn Call.assign.start flat).2.depth = 127 ∧
    (∀ further, runOn (Call.assign.run (Nested.closedBy close 4 further 2)) flat =
      runOn Call.assign.start flat) ∧
    (runOn Call.assign.start grouped).1 = .error ⟨.nestingTooDeep 128, {}⟩ ∧
    127 ≤ (runOn Call.assign.start grouped).2.depth ∧
    (runOn Call.assign.start grouped).2.depth ≤ 128 := by
  intro name sign number before flat grouped close
  have given : (runOn Call.assign.start flat).1 = .ok ⟨⟨"x"⟩, .number "1"⟩ := by decide +kernel
  have refused : (runOn Call.assign.start grouped).1 = .error ⟨.nestingTooDeep 128, {}⟩ := by
    decide +kernel
  have closes : ∀ opened : State, 0 < opened.depth →
      runOn close opened = runOn leave opened := by
    intro opened isOpen
    have someOpen : opened.depth ≠ 0 := Nat.ne_of_gt isOpen
    simp only [close, runOn_bind, runOn_get, if_neg someOpen]
  have flatLevel : flat.depth = 127 := rfl
  have groupedLevel : grouped.depth = 127 := rfl
  have few : flat.unread < 4 := by decide
  clear_value flat grouped
  obtain ⟨calls, _, closing⟩ := calls_level flat (by rw [flatLevel]; decide)
  have deep : depthLimit - flat.depth < 2 := by rw [flatLevel]; decide
  have level := (calls _ .assign).depth_eq given
  rw [flatLevel] at level
  obtain ⟨callsInside, _⟩ := calls_level grouped (by rw [groupedLevel]; decide)
  have inside := (callsInside _ .assign).depth_within refused
  rw [groupedLevel] at inside
  exact ⟨given, level, fun further => closing close closes _ _ further 4 2 few deep,
    refused, inside.1, inside.2⟩

end StartEnd.Parse
