import Mathlib.Logic.Function.Iterate
import StartEnd.Proofs.Parse.Supply

/-!
# Parsers make progress

Whatever the tables hold, a parser of a construct that gives a value has consumed a token
that is no ending. So every round of a loop but the last leaves fewer items unread, and a
loop with more rounds than unread items ends by itself: a twin of the parser that may go
through more rounds does the same.

Each rule here takes one step of a parser and of its twin. The number of items that may be
unread bounds both from above, and the number of tokens that have to be consumed bounds
what a value costs.
-/

namespace StartEnd.Parse

/-- A token that was looked at is consumed first. -/
theorem advance_of_current {state between after : State} {token next : Token}
    (looked : runOn current state = (.ok token, between))
    (taken : runOn advance between = (.ok next, after)) : next = token := by
  obtain ⟨rest, ahead⟩ := lookahead_of_current looked
  rw [runOn_advance, ahead] at taken
  exact (Except.ok.inj (Prod.mk.inj taken).1).symm

/-- A fault at the next token is always one. -/
theorem runOn_unexpected {α : Type} (expected : List Token.Kind) (state : State) :
    ∃ fault after, runOn (unexpected expected : Parse α) state = (.error fault, after) := by
  simp only [unexpected, runOn_bind]
  rcases runOn current state with ⟨fault | token, after⟩
  · exact ⟨_, _, rfl⟩
  · exact ⟨_, _, rfl⟩

/-- With a bounded number of unread items a parser and its twin do the same, and a value
costs at least the given number of them. -/
def Progresses {α : Type} (bound least : Nat) (parser twin : Parse α) : Prop :=
  ∀ state : State, state.unread ≤ bound →
    runOn twin state = runOn parser state ∧
    ∀ value after, runOn parser state = (.ok value, after) → after.unread + least ≤ state.unread

namespace Progresses

variable {α β : Type} {bound least : Nat} {parser twin : Parse α} {first firstTwin : Parse β}
  {second secondTwin : β → Parse α}

/-- A value is given without consuming anything. -/
theorem pure (value : α) :
    Progresses bound 0 (Pure.pure value : Parse α) (Pure.pure value) := by
  intro state _
  refine ⟨rfl, fun result after ran => ?_⟩
  obtain ⟨_, rfl⟩ := Prod.mk.inj ran
  exact Nat.le_refl _

/-- A fault gives no value. -/
theorem throw (fault : Fault) :
    Progresses bound least (MonadExcept.throw fault : Parse α) (MonadExcept.throw fault) := by
  intro state _
  exact ⟨rfl, fun result after ran => absurd (congrArg Prod.fst ran) (by simp [runOn_throw])⟩

/-- What holds with more items unread holds with fewer, and what costs more costs at least
less. -/
theorem weaken {more most : Nat} (progresses : Progresses more most parser twin)
    (fewer : bound ≤ more) (less : least ≤ most) : Progresses bound least parser twin := by
  intro state few
  obtain ⟨same, costs⟩ := progresses state (Nat.le_trans few fewer)
  refine ⟨same, fun value after ran => ?_⟩
  have cost := costs value after ran
  omega

/-- Of parsers in a row the second one meets what the first one has left. -/
theorem bindLeft {early late : Nat} (front : Progresses bound early first firstTwin)
    (back : ∀ value fewer, fewer + early ≤ bound →
      Progresses fewer late (second value) (secondTwin value)) :
    Progresses bound (early + late) (first >>= second) (firstTwin >>= secondTwin) := by
  intro state few
  obtain ⟨same, costs⟩ := front state few
  rw [runOn_bind, runOn_bind, same]
  rcases ran : runOn first state with ⟨fault | value, between⟩
  · exact ⟨rfl, fun result after impossible => absurd (congrArg Prod.fst impossible) (by simp)⟩
  · have cost := costs value between ran
    have left : between.unread + early ≤ bound := Nat.le_trans cost few
    obtain ⟨again, further⟩ := back value between.unread left between (Nat.le_refl _)
    refine ⟨again, fun result after ran => ?_⟩
    have rest := further result after ran
    omega

/-- What follows a parser that costs enough may cost nothing. -/
theorem bind (front : Progresses bound least first firstTwin)
    (back : ∀ value, Progresses bound 0 (second value) (secondTwin value)) :
    Progresses bound least (first >>= second) (firstTwin >>= secondTwin) :=
  front.bindLeft fun value _ left => (back value).weaken (by omega) (Nat.le_refl _)

/-- What comes before a parser that costs enough may cost nothing. -/
theorem before (front : Progresses bound 0 first firstTwin)
    (back : ∀ value, Progresses bound least (second value) (secondTwin value)) :
    Progresses bound least (first >>= second) (firstTwin >>= secondTwin) := by
  have both := front.bindLeft fun value _ left => (back value).weaken left (Nat.le_refl least)
  rwa [Nat.zero_add] at both

/-- Where nothing has to be paid, a parser may cost anything. -/
theorem further (front : Progresses bound least first firstTwin)
    (back : ∀ value, Progresses bound 0 (second value) (secondTwin value)) :
    Progresses bound 0 (first >>= second) (firstTwin >>= secondTwin) :=
  (front.bind back).weaken (Nat.le_refl _) (Nat.zero_le _)

/-- The state can be read. -/
theorem get {second secondTwin : State → Parse α}
    (rest : ∀ state, Progresses bound least (second state) (secondTwin state)) :
    Progresses bound least (MonadState.get >>= second) (MonadState.get >>= secondTwin) :=
  fun state few => rest state state few

/-- A step that consumes nothing and always succeeds costs nothing. -/
theorem silent {first : Parse β} (value : β)
    (quiet : ∀ state, ∃ after, runOn first state = (.ok value, after) ∧
      after.unread = state.unread) : Progresses bound 0 first first := by
  intro state _
  refine ⟨rfl, fun result after ran => ?_⟩
  obtain ⟨reached, moved, same⟩ := quiet state
  obtain ⟨_, rfl⟩ := Prod.mk.inj (moved.symm.trans ran)
  exact Nat.le_of_eq same

/-- Logging costs nothing. -/
theorem reduce (rule : Rule) : Progresses bound 0 (Parse.reduce rule) (Parse.reduce rule) :=
  silent () fun _ => ⟨_, rfl, rfl⟩

/-- Logging several times costs nothing. -/
theorem reduceTimes (rule : Rule) (count : Nat) :
    Progresses bound 0 (Parse.reduceTimes rule count) (Parse.reduceTimes rule count) := by
  induction count with
  | zero => exact pure ()
  | succ count inductionHypothesis => exact (reduce rule).before fun _ => inductionHypothesis

/-- Looking ahead costs nothing. -/
theorem peek (distance : Nat) :
    Progresses bound 0 (Parse.peek distance) (Parse.peek distance) := fun _ _ =>
  ⟨rfl, fun _ _ ran => Nat.le_of_eq (unread_peek ran)⟩

/-- Looking at the kind of the next token costs nothing. -/
theorem currentKind : Progresses bound 0 Parse.currentKind Parse.currentKind :=
  (peek 0).before fun _ => pure _

/-- A fault at the next token gives no value. -/
theorem unexpected (expected : List Token.Kind) :
    Progresses bound least (Parse.unexpected expected : Parse α) (Parse.unexpected expected) :=
  (peek 0).before fun _ => throw _

/-- Too many open constructs give no value. -/
theorem tooDeep : Progresses bound least (Parse.tooDeep : Parse α) Parse.tooDeep :=
  (peek 0).before fun _ => throw _

/-- Consuming whatever token comes is not counted. -/
theorem advance : Progresses bound 0 Parse.advance Parse.advance := fun _ _ =>
  ⟨rfl, fun _ _ ran => Nat.le_trans (Nat.le_add_right _ _) (Nat.le_of_eq (unread_advance ran))⟩

/-- Consuming a token costs it, if a value is given only behind one that is no ending. -/
theorem advanceVisible {second secondTwin : Token → Parse α}
    (rest : ∀ token, Progresses bound 0 (second token) (secondTwin token))
    (refused : ∀ token, token.kind = .endOfInput →
      ∃ fault, second token = MonadExcept.throw fault) :
    Progresses bound 1 (Parse.advance >>= second) (Parse.advance >>= secondTwin) := by
  intro state few
  obtain ⟨same, _⟩ := (advance.bind rest : Progresses bound 0 _ _) state few
  refine ⟨same, fun value after ran => ?_⟩
  rw [runOn_bind] at ran
  rcases taken : runOn Parse.advance state with ⟨fault | token, between⟩
  · simp [taken] at ran
  · simp only [taken] at ran
    have cost := unread_advance taken
    by_cases isEnding : token.kind = .endOfInput
    · obtain ⟨fault, faults⟩ := refused token isEnding
      rw [faults] at ran
      exact absurd (congrArg Prod.fst ran) (by simp [runOn_throw])
    · rw [State.weight_visible isEnding] at cost
      have further := (rest token between (by omega)).2 value after ran
      omega

/-- A token that is wanted costs itself. -/
theorem wanted {kind : Token.Kind} (visible : kind ≠ .endOfInput) (other : Parse Token)
    (refused : ∀ state, ∃ fault after, runOn other state = (.error fault, after)) :
    Progresses bound 1
      (do if (← Parse.currentKind) = kind then Parse.advance else other)
      (do if (← Parse.currentKind) = kind then Parse.advance else other) := by
  intro state few
  refine ⟨rfl, fun value after ran => ?_⟩
  simp only [Parse.currentKind, runOn_bind] at ran
  rcases looked : runOn current state with ⟨fault | token, between⟩
  · simp [looked] at ran
  · simp only [looked, runOn_pure] at ran
    have quiet : between.unread = state.unread := unread_peek looked
    split at ran
    case isTrue same =>
      obtain rfl := advance_of_current looked ran
      have cost := unread_advance ran
      rw [State.weight_visible (same ▸ visible)] at cost
      omega
    case isFalse _ =>
      obtain ⟨fault, last, faults⟩ := refused between
      exact absurd (faults.symm.trans ran) (by simp)

/-- A wanted token costs itself. -/
theorem expect {kind : Token.Kind} (visible : kind ≠ .endOfInput) :
    Progresses bound 1 (Parse.expect kind) (Parse.expect kind) :=
  wanted visible _ (runOn_unexpected _)

/-- A token that closes a body costs itself. -/
theorem expectBodyEnd {kind : Token.Kind} (visible : kind ≠ .endOfInput) :
    Progresses bound 1 (Parse.expectBodyEnd kind) (Parse.expectBodyEnd kind) :=
  wanted visible _ (runOn_unexpected _)

/-- A construct costs what its content costs. -/
theorem construct (progresses : Progresses bound least parser twin) :
    Progresses bound least (do enter; let value ← parser; leave; Pure.pure value)
      (do enter; let value ← twin; leave; Pure.pure value) := by
  have entered : Progresses bound 0 enter enter := by
    refine get fun state => ?_
    split
    · exact tooDeep
    · exact silent () fun _ => ⟨_, rfl, rfl⟩
  refine entered.before fun _ => progresses.bind fun value => ?_
  exact (silent () fun _ => ⟨_, rfl, rfl⟩ : Progresses bound 0 leave leave).before
    fun _ => pure value

end Progresses

/-- Two loops are related, whatever stands behind their rounds, if each round is where those
behind it are related with fewer items unread. The induction is over the number of items that
may be unread. -/
theorem rounds_related {Loop : Type} (related : Nat → Loop → Loop → Prop)
    {round twinRound : Loop → Loop} {bound : Nat}
    (step : ∀ fewer ≤ bound, ∀ again twinAgain : Loop,
      (∀ less < fewer, related less again twinAgain) →
      related fewer (round again) (twinRound twinAgain))
    {count more : Nat} (rounds : bound < count) (moreRounds : bound < more)
    (further twinFurther : Loop) :
    related bound (round^[count] further) (twinRound^[more] twinFurther) := by
  induction bound using Nat.strong_induction_on generalizing count more with
  | h bound inductionHypothesis =>
    obtain ⟨count, rfl⟩ : ∃ fewer, count = fewer + 1 := ⟨count - 1, by omega⟩
    obtain ⟨more, rfl⟩ : ∃ fewer, more = fewer + 1 := ⟨more - 1, by omega⟩
    rw [Function.iterate_succ_apply', Function.iterate_succ_apply']
    refine step bound (Nat.le_refl _) _ _ fun less isLess => ?_
    exact inductionHypothesis less isLess
      (fun least few => step least (Nat.le_trans few (Nat.le_of_lt isLess)))
      (show less < count by omega) (show less < more by omega)

end StartEnd.Parse
