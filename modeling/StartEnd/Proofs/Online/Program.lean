import StartEnd.Proofs.Online.Construct
import StartEnd.Proofs.Parse.Rounds

/-!
# Programs are parsed online

A parse of a stream ends at the newest item that it asked for: at the end of the input
behind a program, at a token where a fault is found, or at a fault of the stream. All items
before are tokens that are no endings. What comes behind the newest item is of no
consequence, so two streams that give the same items up to it are parsed alike.
-/

namespace StartEnd.Parse

open State

/-- What a parse of a stream can ask for: the items of the stream, and then endings. -/
def handed (stream : List Item) : Stream' Item := (State.initial stream).supply

/-- How a parse ends at its newest item. -/
def EndsAt (item : Item) : Except Fault Program → Prop
  | .ok _ => ∃ token, item = .ok token ∧ token.kind = .endOfInput
  | .error fault => MetAt fault item

/-- A whole program, with a bound on the rounds of every loop. -/
def programWithin (steps : Nat) : Parse Program := do
  let body ← untilEndWithin steps
  let _ ← expect .endOfInput
  reduce .program
  return ⟨body⟩

/-- A parse begins at the first item. -/
theorem initial_follows (stream : List Item) :
    (State.initial stream).Follows (handed stream) where
  standard := rfl
  counted := Nat.le_refl _
  view := rfl
  plain := fun _ inside => absurd inside (Nat.not_lt_zero _)
  looked := Nat.zero_le _
  widest := Nat.zero_le _

/-- The part of a program up to its closing word is read online. -/
theorem untilEndWithin_online (steps : Nat) :
    Online (fun _ => True) (untilEndWithin steps) := by
  refine (Online.expect (by decide)).bind fun _ => ?_
  refine (within_online steps depthLimit).body.bind fun _ => ?_
  exact (Online.expectBodyEnd (by decide)).bind fun _ => .pure _

/-- What a parse does depends on nothing but the items that it asks for. -/
theorem programWithin_local (steps : Nat) : Local (programWithin steps) := by
  refine (untilEndWithin_online steps).isLocal.bind fun _ => (Local.expect _).bind fun _ => ?_
  exact (Local.reduce _).bind fun _ => .pure _

/-- The end of the input is consumed behind a program, or a fault is met instead of it. -/
theorem expect_endOfInput_follows {source : Stream' Item} {state : State}
    (follows : state.Follows source) :
    (∃ token after, runOn (expect .endOfInput) state = (.ok token, after) ∧
      source.get state.consumed = .ok token ∧ token.kind = .endOfInput ∧
      after.pulled = state.consumed + 1 ∧ after.widest ≤ 2) ∨
    (∃ fault after, runOn (expect .endOfInput) state = (.error fault, after) ∧
      after.StopsBy source fault) := by
  unfold expect currentKind
  simp only [runOn_bind]
  rcases current_follows follows with
    ⟨token, looked, ran, next, still, same, _⟩ | ⟨fault, after, ran, stops⟩
  · simp only [ran, runOn_pure]
    split
    case isTrue ends =>
      rcases advance_follows still with
        ⟨taken, after, ran, again, newest, few, _⟩ | ⟨fault, after, ran, stops⟩
      · rw [same] at again newest
        obtain rfl : token = taken := Except.ok.inj (next.symm.trans again)
        exact .inl ⟨token, after, ran, next, ends, newest, few⟩
      · exact .inr ⟨fault, after, ran, stops⟩
    case isFalse _ =>
      have refused := (Online.unexpected [.endOfInput] : Online (fun _ => True)
        (unexpected [.endOfInput] : Parse Token)).proceeds source looked still fun _ _ => trivial
      obtain ⟨fault, after, faults⟩ : ∃ fault after,
          runOn (unexpected [.endOfInput] : Parse Token) looked = (.error fault, after) :=
        runOn_unexpected [.endOfInput] looked
      rw [faults] at refused
      exact .inr ⟨fault, after, faults, refused⟩
  · exact .inr ⟨fault, after, by simp only [ran], stops⟩

/-- A parse ends at the newest item, and all items before are tokens that are no endings. -/
theorem items_ends (stream : List Item) :
    (items stream).2.widest ≤ 2 ∧ ∃ index, (items stream).2.pulled = index + 1 ∧
      Plain (handed stream) index ∧ EndsAt ((handed stream).get index) (items stream).1 := by
  have front := (untilEndWithin_online stream.length).proceeds _ _ (initial_follows stream)
    fun _ _ => trivial
  rw [items_eq_untilEndWithin (Nat.le_refl _), runOn_bind]
  rcases ran : runOn (untilEndWithin stream.length) (.initial stream) with ⟨fault | body, middle⟩
  · rw [ran] at front
    exact front
  · rw [ran] at front
    have follows : middle.Follows (handed stream) := front
    simp only [runOn_bind]
    rcases expect_endOfInput_follows follows with
      ⟨token, after, ran, next, ends, newest, few⟩ | ⟨fault, after, ran, stops⟩
    · simp only [ran]
      exact ⟨few, middle.consumed, newest, follows.plain, token, next, ends⟩
    · simp only [ran]
      exact stops

/-- A parse of another stream that gives the same items does the same. -/
theorem items_repeat {stream other : List Item}
    (same : ∀ index < (items stream).2.pulled,
      (handed other).get index = (handed stream).get index) :
    ∃ after, items other = ((items stream).1, after) ∧ after.log = (items stream).2.log ∧
      after.pulled = (items stream).2.pulled := by
  -- Both streams are parsed with as many rounds as the longer one needs.
  have left : items stream = runOn (programWithin (max stream.length other.length))
      (.initial stream) := items_eq_untilEndWithin (Nat.le_max_left _ _)
  have right : items other = runOn (programWithin (max stream.length other.length))
      (.initial other) := items_eq_untilEndWithin (Nat.le_max_right _ _)
  have shares : (State.initial stream).Shares (items stream).2.pulled (.initial other) :=
    ⟨rfl, rfl, rfl, rfl, rfl, rfl, rfl, fun index inside =>
      same index (by simpa [State.initial] using inside)⟩
  rw [left] at shares
  obtain ⟨after, ran, shared⟩ := (programWithin_local _).repeats _ _ _ shares (Nat.le_refl _)
  rw [right, left]
  exact ⟨after, ran, shared.log, shared.pulled⟩

/-- A parse reads no further than it needs: it keeps at most two tokens that it has not
consumed, it ends at the newest item that it asked for, and another stream that gives the
same items up to that one is parsed with the same result and the same log. -/
theorem items_online (stream : List Item) :
    (items stream).2.widest ≤ 2 ∧
    (∃ index, (items stream).2.pulled = index + 1 ∧
      EndsAt ((handed stream).get index) (items stream).1) ∧
    ∀ other, (∀ index < (items stream).2.pulled,
        (handed other).get index = (handed stream).get index) →
      (items other).1 = (items stream).1 ∧
      (items other).2.reductions = (items stream).2.reductions := by
  obtain ⟨few, index, newest, _, ends⟩ := items_ends stream
  refine ⟨few, ⟨index, newest, ends⟩, fun other same => ?_⟩
  obtain ⟨after, ran, logged, _⟩ := items_repeat same
  rw [ran]
  exact ⟨rfl, congrArg List.reverse logged⟩

end StartEnd.Parse
