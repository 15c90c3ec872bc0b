import StartEnd.Proofs.Kinds.Construct

/-!
# Constructs are closed where they were opened

A construct is opened, its content is parsed, and it is closed. A fault in the content leaves
out the closing, so behind a fault at least as many constructs are open as before. There are
never more of them than may be open, since nothing else opens one.

Closing where nothing is open would change nothing. It does not come to that: whatever else is
put in the place of closing, it makes no difference as long as it closes a construct where one
is open. This is said of parsers that open constructs without a bound on their own, so that it
is the limit on open constructs alone that ends the recursion.
-/

namespace StartEnd.Parse

variable {α β : Type} {fact : Token.Kind → Prop} {held : List String} {form : Form α}
  {parser : Parse α}

/-! ## Behind a fault -/

/-- Behind a fault at least as many constructs are open as before, and no more than may be. -/
def Rises (fact : Token.Kind → Prop) (parser : Parse α) : Prop :=
  ∀ (state : State) (fault : Fault) (after : State), state.NextKind fact →
    state.depth ≤ depthLimit → runOn parser state = (.error fault, after) →
    state.depth ≤ after.depth ∧ after.depth ≤ depthLimit

/-- Parsers in a row fault where the first does, or where the second does behind its value. -/
theorem fault_of_bind {first : Parse β} {second : β → Parse α} {state after : State}
    {fault : Fault} (ran : runOn (first >>= second) state = (.error fault, after)) :
    runOn first state = (.error fault, after) ∨
      ∃ found middle, runOn first state = (.ok found, middle) ∧
        runOn (second found) middle = (.error fault, after) := by
  rw [runOn_bind] at ran
  rcases early : runOn first state with ⟨raised | found, middle⟩
  · rw [early] at ran
    cases ran
    exact .inl rfl
  · rw [early] at ran
    dsimp only at ran
    exact .inr ⟨found, middle, rfl, ran⟩

namespace Rises

/-- What needs no fact holds with any. -/
theorem known (rises : Rises (fun _ => True) parser) : Rises fact parser :=
  fun state fault after _ => rises state fault after state.nextKind_any

/-- A value is no fault. -/
theorem pure (value : α) : Rises fact (Pure.pure value : Parse α) :=
  fun _ _ _ _ _ ran => absurd (congrArg Prod.fst ran) (by simp [runOn_pure])

/-- What opens and closes nothing leaves as many constructs open. -/
theorem of_depth (level : ∀ state, (runOn parser state).2.depth = state.depth) :
    Rises fact parser := by
  intro state fault after _ bounded ran
  have same : after.depth = state.depth := by simpa [ran] using level state
  rw [same]
  exact ⟨Nat.le_refl _, bounded⟩

/-- Behind a first parser that opens nothing as many constructs are open as before. What is
known behind it may depend on its value. -/
theorem behind {first : Parse β} {second : β → Parse α} (later : β → Token.Kind → Prop)
    (front : Rises fact first) (back : ∀ value, Rises (later value) (second value))
    (level : ∀ state value after, state.NextKind fact → runOn first state = (.ok value, after) →
      after.depth = state.depth ∧ after.NextKind (later value)) :
    Rises fact (first >>= second) := by
  intro state fault after known bounded ran
  rcases fault_of_bind ran with early | ⟨found, middle, early, late⟩
  · exact front state fault after known bounded early
  · obtain ⟨same, next⟩ := level state found middle known early
    rw [← same] at bounded ⊢
    exact back found middle fault after next bounded late

end Rises

/-- Parsers of constructs behind whose faults at least as many constructs are open. -/
structure Nested.Rises (inner : Nested) : Prop where
  expr : ∀ place, Parse.Rises (fun _ => True) (inner.expr place)
  body : Parse.Rises (fun _ => True) inner.body
  branch : Parse.Rises (fun _ => True) inner.branch

/-- What is composed leaves constructs open behind a fault as the inner parsers do. The
induction is over the composition. -/
theorem Composed.rises {parser twin : Nested → Parse α}
    (composed : Composed fact held form parser twin) {inner : Nested} (rises : inner.Rises)
    (balanced : inner.Balanced) : Rises fact (parser inner) := by
  have looked {distance : Nat} {state after : State} {token : Token}
      (ran : runOn (peek distance) state = (.ok token, after)) : after.depth = state.depth := by
    simpa [ran] using depth_peek distance state
  induction composed with
  | pure texts erased => exact .pure _
  | throw erased => exact .of_depth fun _ => rfl
  | frame framed inductionHypothesis => exact inductionHypothesis
  | chain front back early late =>
    exact early.behind _ late fun state value after known ran =>
      ⟨front.balanced balanced state value after known ran, after.nextKind_any⟩
  | get rest inductionHypothesis => exact fun state => inductionHypothesis state state
  | current rest inductionHypothesis =>
    exact (Rises.of_depth (depth_peek 0)).behind _ inductionHypothesis fun _ _ _ _ ran =>
      ⟨looked ran, State.nextKind_of_current ran⟩
  | ahead distance rest inductionHypothesis =>
    exact (Rises.of_depth (depth_peek distance)).behind _ inductionHypothesis
      fun _ _ after _ ran => ⟨looked ran, after.nextKind_any⟩
  | @advance _ fact _ _ second secondTwin rest refused inductionHypothesis =>
    intro state fault after known bounded ran
    rcases fault_of_bind ran with early | ⟨token, middle, taken, late⟩
    · exact Rises.of_depth depth_advance state fault after known bounded early
    · have same : middle.depth = state.depth := by simpa [taken] using depth_advance state
      rw [← same] at bounded ⊢
      exact inductionHypothesis token (known.of_advance taken) middle fault after
        middle.nextKind_any bounded late
  | reduce rule => exact .of_depth fun _ => rfl
  | expr place => exact (rises.expr place).known
  | body => exact rises.body.known
  | branch => exact rises.branch.known
  | steps rest inductionHypothesis => exact inductionHypothesis inner.steps

/-- Too many open constructs are reported without opening one. -/
theorem Rises.tooDeep : Rises fact (Parse.tooDeep : Parse α) := by
  refine .of_depth fun state => ?_
  have level : (runOn current state).2.depth = state.depth := depth_peek 0 state
  simp only [Parse.tooDeep, runOn_bind]
  rcases ran : runOn current state with ⟨fault | token, after⟩
  · rwa [ran] at level
  · rwa [ran] at level

/-- A construct leaves constructs open behind a fault as its content does. -/
theorem Rises.construct (rises : Rises (fun _ => True) parser) :
    Rises (fun _ => True) (do enter; let value ← parser; leave; Pure.pure value) := by
  intro state fault after known bounded ran
  by_cases full : depthLimit ≤ state.depth
  · rcases fault_of_bind ran with early | ⟨_, opened, entered, _⟩
    · rw [runOn_enter, if_pos full] at early
      exact Rises.tooDeep state fault after known bounded early
    · rw [runOn_enter, if_pos full] at entered
      exact absurd entered runOn_tooDeep_ne_ok
  · rw [runOn_bind, runOn_enter, if_neg full] at ran
    dsimp only at ran
    rcases fault_of_bind ran with inside | ⟨found, middle, _, closing⟩
    · have room : state.depth + 1 ≤ depthLimit := Nat.lt_of_not_le full
      obtain ⟨low, high⟩ := rises { state with depth := state.depth + 1 } fault after
        (State.nextKind_any _) room inside
      exact ⟨Nat.le_of_succ_le low, high⟩
    · have given : (runOn (do leave; Pure.pure found) middle).1 = .ok found := rfl
      rw [closing] at given
      cases given

/-- The parsers of constructs leave constructs open behind a fault, and no more than may be. The
induction is over the constructs that may still be opened. -/
theorem within_rises (steps room : Nat) : (Nested.within steps room).Rises := by
  induction room with
  | zero => exact ⟨fun _ => .tooDeep, .tooDeep, .tooDeep⟩
  | succ room inductionHypothesis =>
    have balanced := within_balanced steps room
    exact ⟨fun place =>
        ((exprContent_composed steps place).rises inductionHypothesis balanced).construct,
      (bodyContent_composed.rises inductionHypothesis balanced).construct,
      (branchContent_composed.rises inductionHypothesis balanced).construct⟩

/-! ## Closing -/

/-- A parser that closes a construct where one is open, and does anything where none is. -/
def Closes (close : Parse Unit) : Prop :=
  ∀ state : State, 0 < state.depth → runOn close state = runOn leave state

/-- Parsers of constructs that go a number of constructs deep, with anything inside of these, and
with a given parser that closes them. -/
def Nested.closedBy (close : Parse Unit) (steps : Nat) (further : Nested) : Nat → Nested
  | 0 => further
  | levels + 1 =>
    let inner := closedBy close steps further levels
    { steps := steps
      expr := fun place => do
        enter
        let expr ← exprContent steps inner.expr place
        close
        return expr
      body := do
        enter
        let body ← bodyContent inner
        close
        return body
      branch := do
        enter
        let link ← branchContent inner
        close
        return link }

/-- A construct may hold one construct less than may be opened outside of it. It is open when it
is closed, if its content closes what it opens. -/
theorem Agrees.construct {room : Nat} {twin : Parse α} {close : Parse Unit}
    (agrees : Agrees room (fun _ => True) parser twin)
    (balanced : Balanced (fun _ => True) parser) (closes : Closes close) :
    Agrees (room + 1) (fun _ => True) (do enter; let value ← parser; leave; Pure.pure value)
      (do enter; let value ← twin; close; Pure.pure value) := by
  intro state _ full
  rw [runOn_bind, runOn_bind]
  rcases entered : runOn enter state with ⟨fault | value, opened⟩
  · rfl
  · have isOpen : opened.depth = state.depth + 1 := (enter_effect entered).1
    have deeper : depthLimit ≤ opened.depth + room := by omega
    dsimp only
    rw [runOn_bind, runOn_bind, agrees opened opened.nextKind_any deeper]
    rcases ran : runOn parser opened with ⟨fault | found, middle⟩
    · rfl
    · have level : middle.depth = opened.depth :=
        balanced opened found middle opened.nextKind_any ran
      have stillOpen : 0 < middle.depth := by omega
      dsimp only
      rw [runOn_bind, runOn_bind, closes middle stillOpen]

/-- Where no construct may be opened, no content of one is reached, nor is it closed. -/
theorem Agrees.tooDeep (content : Parse β) (rest : β → Parse α) :
    Agrees 0 fact Parse.tooDeep (do enter; let value ← content; rest value) := by
  intro state _ full
  have full : depthLimit ≤ state.depth := full
  rw [runOn_bind, runOn_enter, if_pos full]
  simp only [Parse.tooDeep, runOn_bind]
  rcases runOn current state with ⟨fault | token, after⟩
  · rfl
  · rfl

/-- The bound on rounds is the same at every depth. -/
theorem steps_within (steps room : Nat) : (Nested.within steps room).steps = steps := by
  cases room <;> rfl

/-- What would come inside of more constructs than may be opened is not reached, and constructs
are closed only where one is open. The induction is over those that may still be opened. -/
theorem within_agrees_closedBy {close : Parse Unit} (closes : Closes close) (steps : Nat)
    (further : Nested) {room levels : Nat} (deep : room < levels) :
    (Nested.within steps room).Agrees room (Nested.closedBy close steps further levels) := by
  have same (room levels : Nat) : (Nested.closedBy close steps further (levels + 1)).steps =
      (Nested.within steps room).steps := (steps_within steps room).symm
  induction room generalizing levels with
  | zero =>
    obtain ⟨levels, rfl⟩ : ∃ fewer, levels = fewer + 1 := ⟨levels - 1, by omega⟩
    exact ⟨same 0 levels, fun _ => .tooDeep _ _, .tooDeep _ _, .tooDeep _ _⟩
  | succ room inductionHypothesis =>
    obtain ⟨levels, rfl⟩ : ∃ fewer, levels = fewer + 1 := ⟨levels - 1, by omega⟩
    have agrees := inductionHypothesis (Nat.lt_of_succ_lt_succ deep)
    have balanced := within_balanced steps room
    exact ⟨same (room + 1) levels,
      fun place => ((exprContent_composed steps place).agrees agrees balanced).construct
        ((exprContent_composed steps place).balanced balanced) closes,
      (bodyContent_composed.agrees agrees balanced).construct
        (bodyContent_composed.balanced balanced) closes,
      (branchContent_composed.agrees agrees balanced).construct
        (branchContent_composed.balanced balanced) closes⟩

end StartEnd.Parse
