import StartEnd.Proofs.Reading.Program
import StartEnd.Proofs.Replay.Statement

/-!
# Replaying programs

Everything a parse logs is a replay from the bottom up. On a stream of tokens the replay
shifts exactly what was consumed, whether the parse succeeds or faults, and a successful
one shifts everything before the end of the input and ends with the program alone.
-/

namespace StartEnd

namespace Replay

/-- No end-of-input token is shifted. -/
theorem Runs.visible {stack last : List Entry} {events : List Event}
    (runs : Runs stack events last) : ∀ token ∈ shifts events, token.kind ≠ .endOfInput := by
  induction runs with
  | done stack => simp [shifts]
  | next step rest inductionHypothesis =>
    cases step with
    | shift stack token visible =>
      intro other member
      rcases List.mem_cons.mp member with rfl | inside
      · exact visible
      · exact inductionHypothesis other inside
    | reduce below entries rule made fits built => exact inductionHypothesis
    | unbrace below guard opening closing body guarded opens closes => exact inductionHypothesis

end Replay

namespace Parse

open Replay

/-- The part of a program up to its closing word. -/
def untilEnd : Parse Block := do
  let _ ← expect .startWord
  let body ← (← nested).body
  let _ ← expectBodyEnd .endWord
  return body

/-- Behind the closing word of a program only the end of the input is left. -/
theorem program_eq_untilEnd :
    program = (do
      let body ← untilEnd
      let _ ← expect .endOfInput
      reduce .program
      return ⟨body⟩) := by
  simp only [program, untilEnd, bind_assoc, pure_bind]

variable {α : Type} {steps : Nat} {fact : Stream' Item → Prop} {top : List Entry}
  {shape : α → List Entry → Prop} {ahead : α → Stream' Item → Prop}

/-- The parsers of constructs have enough rounds for the items that are ahead. -/
theorem Replays.nested {second : Nested → Parse α}
    (rest : ∀ count room, Replays count fact top (second (Nested.within count room)) shape
      ahead) :
    Replays steps fact top (Parse.nested >>= second) shape ahead := by
  intro state below ready _ holds
  have few : state.unread ≤ state.lookahead.length + state.stream.length + 1 := by
    have bound : state.unread ≤ state.upcoming.length := List.countP_le_length
    simp only [State.upcoming, List.length_append, List.length_map] at bound
    omega
  have ran : runOn (Parse.nested >>= second) state = runOn (second (Nested.within
      (state.lookahead.length + state.stream.length + 1) (depthLimit - state.depth))) state := by
    simp only [Parse.nested, pending, runOn_bind, runOn_get, runOn_pure]
  rw [ran]
  exact rest _ _ state below ready few holds

/-- Up to its closing word a program leaves the body of its production. -/
theorem untilEnd_replays :
    Replays steps Unknown [] untilEnd
      (fun body stack => ∃ first last, first.kind = .startWord ∧ last.kind = .endWord ∧
        stack = [.terminal first, .phrase .body body, .terminal last]) (fun _ => Unknown) := by
  apply Replays.expect (by decide)
  intro first starts
  apply Replays.nested
  intro count room
  apply Replays.call (within_replays count room).body
  rintro body _ rfl
  apply Replays.expectBodyEnd (by decide)
  intro last ends
  exact Replays.pure ⟨first, last, starts, ends, rfl⟩ fun _ _ => trivial

/-- What a parse of a program does is a replay up to a fault, or one that ends with the
program alone in front of the end of the input. -/
theorem program_outcome {state : State} (ready : state.Ready) :
    (∃ tree after events rest, runOn program state = (.ok tree, after) ∧
      Runs [] events [.phrase .program tree] ∧
      after.log = (Replay.reductions events).reverse ++ state.log ∧
      state.view = (shifts events).map Except.ok ++ₛ rest ∧ Shows .endOfInput rest) ∨
    (∃ fault after events stack, runOn program state = (.error fault, after) ∧
      Runs [] events stack ∧ state.Stops events after) := by
  have front := untilEnd_replays state [] ready (Nat.le_refl _) trivial
  rw [program_eq_untilEnd, runOn_bind]
  generalize runOn untilEnd state = outcome at front ⊢
  rcases outcome with ⟨fault | body, middle⟩
  · obtain ⟨events, stack, runs, stops⟩ := front
    exact .inr ⟨fault, middle, events, stack, rfl, runs, stops⟩
  · obtain ⟨events, stack, runs, plays, ⟨first, last, starts, ends, rfl⟩, _⟩ := front
    simp only [runOn_bind]
    rcases expect_outcome .endOfInput plays.ready with
      ⟨next, after, ran, isEnding, consumes⟩ | ⟨fault, after, ran, kept⟩
    · have completed : Runs [] (events ++ [.reduce .program])
          [.phrase .program (Program.mk body)] := by
        refine runs.append (.single (.reduce [] _ .program (Program.mk body) ?_ rfl))
        simp only [List.map_cons, List.map_nil, Entry.symbol_terminal, starts, ends]
        rfl
      rw [ran]
      refine .inl ⟨_, _, _, middle.view, rfl, completed, ?_, ?_, next, ?_, isEnding⟩
      · show Rule.program :: after.log = _
        rw [consumes.log, plays.log, reductions_append, List.reverse_append]
        rfl
      · rw [plays.view, shifts_append, shifts_reduce, List.append_nil]
      · rw [consumes.view]
        rfl
    · have stops := plays.trans_stops kept.stops
      rw [List.append_nil] at stops
      rw [ran]
      exact .inr ⟨fault, after, events, _, rfl, runs, stops⟩

/-- Tokens at the front of items that are followed by endings are items. -/
theorem exists_append_of_view {tokens : List Token} {items : List Item} {rest : Stream' Item}
    {ending : Token} (isEnding : ending.kind = .endOfInput)
    (visible : ∀ token ∈ tokens, token.kind ≠ .endOfInput)
    (same : tokens.map Except.ok ++ₛ rest = items ++ₛ Stream'.const (.ok ending)) :
    ∃ others, items = tokens.map Except.ok ++ others ∧
      rest = others ++ₛ Stream'.const (.ok ending) := by
  induction tokens generalizing items with
  | nil => exact ⟨items, rfl, same⟩
  | cons token tokens inductionHypothesis =>
    rcases items with _ | ⟨item, items⟩
    · have heads : (.ok token : Item) = .ok ending := congrArg Stream'.head same
      obtain rfl := Except.ok.inj heads
      exact absurd isEnding (visible token (by simp))
    · have heads : .ok token = item := congrArg Stream'.head same
      have tails : tokens.map Except.ok ++ₛ rest = items ++ₛ Stream'.const (.ok ending) :=
        congrArg Stream'.tail same
      obtain ⟨others, rfl, further⟩ := inductionHypothesis
        (fun other member => visible other (List.mem_cons_of_mem _ member)) tails
      exact ⟨others, by rw [← heads]; rfl, further⟩

/-- If all items are tokens, those behind some tokens are tokens too. -/
theorem exists_append_of_items {tokens front : List Token} {others : List Item}
    (split : tokens.map Except.ok = front.map Except.ok ++ others) :
    ∃ back, tokens = front ++ back ∧ others = back.map Except.ok := by
  obtain ⟨first, back, rfl, same, rfl⟩ := List.map_eq_append_iff.mp split
  have injective : Function.Injective (Except.ok : Token → Item) := fun _ _ => Except.ok.inj
  obtain rfl : first = front := List.map_injective_iff.mpr injective same
  exact ⟨back, rfl, rfl⟩

/-- A successful parse of a stream is a replay of the tokens at its front, behind which
the stream ends or has an end-of-input token. -/
theorem succeeded_replayed {opened : Nat} {stream : List Item} {tree : Program} {after : State}
    (parsed : runOn program (.initialAt opened stream) = (.ok tree, after)) :
    ∃ events others, Runs [] events [.phrase .program tree] ∧
      Replay.reductions events = after.reductions ∧
      stream = (shifts events).map Except.ok ++ others ∧
      ∀ item ∈ others.head?, ∃ token, item = .ok token ∧ token.kind = .endOfInput := by
  have ready : (State.initialAt opened stream).Ready := ⟨rfl, Nat.le_refl _⟩
  rcases program_outcome ready with
    ⟨same, last, events, rest, ran, runs, log, shown, ended⟩ | ⟨fault, last, _, _, ran, _⟩
  · obtain ⟨isTree, rfl⟩ := Prod.mk.inj (ran.symm.trans parsed)
    obtain rfl := Except.ok.inj isTree
    obtain ⟨others, split, rfl⟩ := exists_append_of_view rfl runs.visible shown.symm
    refine ⟨events, others, runs, ?_, split, ?_⟩
    · rw [State.reductions, log, List.reverse_append, List.reverse_reverse]
      rfl
    · rintro item isNext
      obtain ⟨token, isFirst, isEnding⟩ := ended
      rcases others with _ | ⟨first, others⟩
      · exact absurd isNext (by simp)
      · obtain rfl : first = item := by simpa using isNext
        exact ⟨token, isFirst, isEnding⟩
  · have impossible := congrArg Prod.fst (ran.symm.trans parsed)
    exact absurd impossible (by simp)

/-- The tokens of a successful parse are those before the first end-of-input token. -/
theorem succeeded_tokens {opened : Nat} {tokens : List Token} {tree : Program} {after : State}
    (parsed : tokensAt opened tokens = (.ok tree, after)) :
    ∃ events, Runs [] events [.phrase .program tree] ∧
      Replay.reductions events = after.reductions ∧ shifts events = beforeEnding tokens := by
  obtain ⟨events, others, runs, logged, split, ended⟩ := succeeded_replayed parsed
  obtain ⟨back, whole, rfl⟩ := exists_append_of_items split
  refine ⟨events, runs, logged, ?_⟩
  have stops : beforeEnding back = [] := by
    rcases back with _ | ⟨first, rest⟩
    · rfl
    · obtain ⟨token, same, isEnding⟩ := ended (.ok first) rfl
      obtain rfl := Except.ok.inj same
      simp [beforeEnding, isEnding]
  have kept : beforeEnding (shifts events ++ back) = shifts events ++ beforeEnding back :=
    List.takeWhile_append_of_pos fun token member => by simpa using runs.visible token member
  rw [whole, kept, stops, List.append_nil]

/-- Before a parse of tokens nothing but tokens is ahead. -/
theorem initial_clean (tokens : List Token) :
    (State.initial (tokens.map Except.ok)).Clean := by
  obtain ⟨last, ahead, _, faces⟩ := initialAt_faces 0 tokens
  exact fun index => ⟨_, State.Faces.get faces index⟩

/-- The tokens that a failed parse has consumed are those that its replay shifts. -/
theorem failed_replayed {tokens : List Token} {fault : Fault} {after : State}
    (parsed : Parse.tokens tokens = (.error fault, after)) :
    ∃ events stack, Runs [] events stack ∧ Replay.reductions events = after.reductions ∧
      shifts events = tokens.take after.consumed := by
  have ready : (State.initial (tokens.map Except.ok)).Ready := ⟨rfl, Nat.le_refl _⟩
  rcases program_outcome ready with
    ⟨tree, last, events, rest, ran, _⟩ | ⟨_, last, events, stack, ran, runs, stops⟩
  · have impossible := congrArg Prod.fst (ran.symm.trans parsed)
    exact absurd impossible (by simp)
  · obtain ⟨_, rfl⟩ := Prod.mk.inj (ran.symm.trans parsed)
    obtain ⟨rest, shown⟩ := stops.shown
    obtain ⟨others, split, rfl⟩ := exists_append_of_view rfl runs.visible shown.symm
    obtain ⟨back, whole, rfl⟩ := exists_append_of_items split
    refine ⟨events, stack, runs, ?_, ?_⟩
    · rw [State.reductions, stops.log, List.reverse_append, List.reverse_reverse]
      rfl
    · have consumed : last.consumed = 0 + (shifts events).length :=
        stops.consumed (initial_clean tokens)
      rw [consumed, Nat.zero_add, whole, List.take_left]

/-- The log of a parse of tokens is a replay from the bottom up. It shifts the tokens that
were consumed, up to the end of the input, and a successful one makes the program. -/
theorem tokens_replayed (tokens : List Token) :
    ∃ events stack, Runs [] events stack ∧
      Replay.reductions events = (Parse.tokens tokens).2.reductions ∧
      match (Parse.tokens tokens).1 with
      | .ok program =>
        shifts events = beforeEnding tokens ∧ stack = [.phrase .program program]
      | .error _ => shifts events = tokens.take (Parse.tokens tokens).2.consumed := by
  rcases parsed : Parse.tokens tokens with ⟨fault | tree, after⟩
  · exact failed_replayed parsed
  · rw [← tokensAt_zero] at parsed
    obtain ⟨events, runs, logged, shifted⟩ := succeeded_tokens parsed
    exact ⟨events, _, runs, logged, shifted, rfl⟩

end Parse

end StartEnd
