import Mathlib.Data.Stream.Init
import StartEnd.Parse.Program

/-!
# What a parse has still to read

A state splits the items ahead into those that were looked at and those that were
not. The split is of no consequence for what a parse does: the view of a state is
the endless sequence of items ahead, with the end-of-input tokens that follow the
last item of the stream. Looking ahead leaves the view as it is, and consuming a
token drops the first item of it.

A fault of the stream is met by looking or by consuming. Behind it nothing is known
about the view, but what was consumed, opened and logged before stays so.
-/

namespace StartEnd.Parse

namespace State

/-- The span of the last token of the stream, or of the last token before it. -/
def finalSpan (state : State) : Span :=
  state.stream.foldl (fun span item => item.toOption.elim span Token.span) state.lastSpan

/-- The token that follows the last item of the stream. -/
def ending (state : State) : Token := .ending state.finalSpan.stop

/-- The items that are not consumed yet, without those that follow the stream. -/
def upcoming (state : State) : List Item := state.lookahead.map Except.ok ++ state.stream

/-- All items ahead, with the endings that follow the stream. -/
def view (state : State) : Stream' Item := state.upcoming ++ₛ Stream'.const (.ok state.ending)

/-- The number of tokens that were consumed. -/
def consumed (state : State) : Nat := state.pulled - state.lookahead.length

/-- The number of items ahead that are not end-of-input tokens. -/
def unread (state : State) : Nat :=
  state.upcoming.countP fun item => item.toOption.all (·.kind ≠ .endOfInput)

/-- A state of a parse of the language: the tables are the standard ones, and only
tokens of the stream were looked at. -/
structure Ready (state : State) : Prop where
  standard : state.tables = .standard
  counted : state.lookahead.length ≤ state.pulled

/-- A state with nothing but tokens ahead. -/
def Clean (state : State) : Prop := ∀ index, ∃ token, state.view.get index = .ok token

/-- Nothing was consumed, opened or logged between two states. A fault of the stream
takes an item too, so tokens are counted only where there is none. -/
structure Kept (before after : State) : Prop where
  ready : after.Ready
  log : after.log = before.log
  depth : after.depth = before.depth
  consumed : before.Clean → after.consumed = before.consumed

/-- Two states that differ at most in how far ahead was looked. -/
structure Alike (before after : State) : Prop extends Kept before after where
  view : after.view = before.view
  unread : after.unread = before.unread

/-- One token was consumed between two states, and nothing was opened or logged. -/
structure Consumes (before : State) (token : Token) (after : State) : Prop where
  ready : after.Ready
  log : after.log = before.log
  depth : after.depth = before.depth
  consumed : before.Clean → after.consumed = before.consumed + 1
  view : before.view = Stream'.cons (.ok token) after.view
  unread : token.kind ≠ .endOfInput → after.unread + 1 = before.unread

/-- A state is like itself. -/
theorem Alike.refl {state : State} (ready : state.Ready) : state.Alike state :=
  ⟨⟨ready, rfl, rfl, fun _ => rfl⟩, rfl, rfl⟩

/-- Looking ahead shows no fault that was not there. -/
theorem Alike.clean {before after : State} (alike : before.Alike after) (clean : before.Clean) :
    after.Clean := by
  intro index
  rw [alike.view]
  exact clean index

/-- Looking twice is like looking once. -/
theorem Alike.trans {first second third : State} (front : first.Alike second)
    (back : second.Alike third) : first.Alike third where
  ready := back.ready
  log := back.log.trans front.log
  depth := back.depth.trans front.depth
  consumed := fun clean => (back.consumed (front.clean clean)).trans (front.consumed clean)
  view := back.view.trans front.view
  unread := back.unread.trans front.unread

/-- A fault behind a look is like a fault at once. -/
theorem Alike.trans_kept {first second third : State} (front : first.Alike second)
    (back : second.Kept third) : first.Kept third where
  ready := back.ready
  log := back.log.trans front.log
  depth := back.depth.trans front.depth
  consumed := fun clean => (back.consumed (front.clean clean)).trans (front.consumed clean)

/-- Consuming behind a look is consuming. -/
theorem Alike.trans_consumes {first second third : State} {token : Token}
    (front : first.Alike second) (back : second.Consumes token third) :
    first.Consumes token third where
  ready := back.ready
  log := back.log.trans front.log
  depth := back.depth.trans front.depth
  consumed := fun clean => by rw [back.consumed (front.clean clean), front.consumed clean]
  view := front.view.symm.trans back.view
  unread := fun visible => (back.unread visible).trans front.unread

/-- Behind the items of the stream the view shows endings. -/
theorem view_get_of_le {state : State} {index : Nat} (behind : state.upcoming.length ≤ index) :
    state.view.get index = .ok state.ending := by
  obtain ⟨further, rfl⟩ := Nat.exists_eq_add_of_le behind
  exact Stream'.get_append_right further state.upcoming _

/-- Among the items that were looked at the view shows the tokens that were found. -/
theorem view_get_of_lookahead {state : State} {index : Nat} {token : Token}
    (looked : state.lookahead[index]? = some token) : state.view.get index = .ok token := by
  obtain ⟨inside, found⟩ := List.getElem?_eq_some_iff.mp looked
  have within : index < state.upcoming.length := by
    simp only [upcoming, List.length_append, List.length_map]
    omega
  unfold view
  rw [Stream'.get_append_left index state.upcoming _ within]
  simp [upcoming, inside, found]

/-- A token of the view that is not an ending is an item of the stream. -/
theorem lt_upcoming_of_view {state : State} {index : Nat} {token : Token}
    (seen : state.view.get index = .ok token) (visible : token.kind ≠ .endOfInput) :
    index < state.upcoming.length := by
  by_contra behind
  rw [view_get_of_le (Nat.le_of_not_lt behind)] at seen
  obtain rfl := Except.ok.inj seen
  exact visible rfl

/-- The first item that was not looked at is the first one of the stream. -/
theorem view_get_lookahead {state : State} {item : Item} {rest : List Item}
    (found : state.stream = item :: rest) :
    state.view.get state.lookahead.length = item := by
  have inside : state.lookahead.length < state.upcoming.length := by
    simp [upcoming, found]
  unfold view
  rw [Stream'.get_append_left _ state.upcoming _ inside]
  simp [upcoming, found]

/-- The state behind taking a token from the stream and keeping it. -/
def queued (state : State) (token : Token) : State :=
  { state with
    stream := state.stream.tail
    lookahead := state.lookahead ++ [token]
    lastSpan := token.span
    pulled := state.pulled + 1
    widest := max state.widest (state.lookahead ++ [token]).length }

/-- Keeping the token that the stream shows next is only a look. -/
theorem alike_queued {state : State} {token : Token} (ready : state.Ready)
    (next : state.view.get state.lookahead.length = .ok token) :
    state.Alike (state.queued token) := by
  have ready : (state.queued token).Ready := ⟨ready.standard, by
    simpa [queued] using ready.counted⟩
  refine ⟨⟨ready, rfl, rfl, fun _ => by simp [queued, consumed]⟩, ?_, ?_⟩
  all_goals rcases found : state.stream with _ | ⟨item, rest⟩
  · have last : state.view.get state.lookahead.length = .ok state.ending :=
      view_get_of_le (by simp [upcoming, found])
    obtain rfl : state.ending = token := Except.ok.inj (last.symm.trans next)
    have repeated : Stream'.cons (.ok state.ending) (Stream'.const (.ok state.ending)) =
        (Stream'.const (.ok state.ending) : Stream' Item) := (Stream'.const_eq _).symm
    simpa [queued, view, upcoming, found, ending, finalSpan, Token.ending, Span.point,
      Stream'.append_append_stream, Stream'.cons_append_stream] using repeated
  · obtain rfl : item = .ok token := (view_get_lookahead found).symm.trans next
    simp [queued, view, upcoming, found, ending, finalSpan, Except.toOption]
  · have last : state.view.get state.lookahead.length = .ok state.ending :=
      view_get_of_le (by simp [upcoming, found])
    obtain rfl : state.ending = token := Except.ok.inj (last.symm.trans next)
    simp [queued, unread, upcoming, found, ending, Token.ending, Except.toOption]
  · obtain rfl : item = .ok token := (view_get_lookahead found).symm.trans next
    simp [queued, unread, upcoming, found]

/-- Without anything looked at, the token that the stream shows next is consumed by
taking it. -/
theorem consumes_taken {state : State} {token : Token} (ready : state.Ready)
    (unlooked : state.lookahead = []) (next : state.view.head = .ok token) :
    state.Consumes token
      { state.queued token with lookahead := [], widest := state.widest } := by
  have alike : state.Alike (state.queued token) := alike_queued ready (by
    simpa [unlooked] using next)
  refine ⟨⟨ready.standard, Nat.zero_le _⟩, rfl, rfl, ?_, ?_, ?_⟩
  · intro clean
    simp [queued, consumed, unlooked]
  · rw [← alike.view]
    simp [queued, view, upcoming, unlooked, ending, finalSpan, Stream'.cons_append_stream]
  · intro visible
    rw [← alike.unread]
    simp [queued, unread, upcoming, unlooked, Except.toOption, visible, Nat.add_comm]

/-- A token that was looked at is consumed by dropping it. -/
theorem consumes_looked {state : State} {token : Token} {rest : List Token}
    (ready : state.Ready) (looked : state.lookahead = token :: rest) :
    state.Consumes token { state with lookahead := rest } := by
  have counted : rest.length + 1 ≤ state.pulled := by
    simpa [looked] using ready.counted
  refine ⟨⟨ready.standard, Nat.le_of_succ_le counted⟩, rfl, rfl, ?_, ?_, ?_⟩
  · intro clean
    simp only [consumed, looked, List.length_cons]
    omega
  · simp [view, upcoming, looked, ending, finalSpan, Stream'.cons_append_stream]
  · intro visible
    simp [unread, upcoming, looked, Except.toOption, visible, Nat.add_right_comm]

end State

/-- Opening a construct, unless as many are open as may be. -/
theorem runOn_enter (state : State) :
    runOn enter state = if depthLimit ≤ state.depth then runOn tooDeep state
      else (.ok (), { state with depth := state.depth + 1 }) := by
  simp only [enter, runOn_bind, runOn_get]
  split
  · rfl
  · rfl

/-- Taking an item gives the first one that was not looked at. -/
theorem pull_outcome {state : State} (ready : state.Ready) :
    (∃ token, runOn pull state =
        (.ok token, { state.queued token with
          lookahead := state.lookahead
          widest := state.widest }) ∧
      state.view.get state.lookahead.length = .ok token) ∨
    (∃ fault after, runOn pull state = (.error fault, after) ∧
      state.view.get state.lookahead.length = .error fault ∧ state.Kept after) := by
  rcases found : state.stream with _ | ⟨fault | token, rest⟩
  · refine .inl ⟨state.ending, ?_, State.view_get_of_le (by simp [State.upcoming, found])⟩
    simp only [pull, runOn_bind, runOn_get, found, runOn_set, runOn_pure, State.ending,
      State.finalSpan, State.queued, List.foldl_nil, List.tail_nil]
  · have ran : runOn pull state =
        (.error fault, { state with stream := rest, pulled := state.pulled + 1 }) := by
      simp only [pull, runOn_bind, runOn_get, found, runOn_set, runOn_throw]
    refine .inr ⟨fault, _, ran, State.view_get_lookahead found, ?_, rfl, rfl, ?_⟩
    · exact ⟨ready.standard, Nat.le_succ_of_le ready.counted⟩
    · intro clean
      obtain ⟨token, shown⟩ := clean state.lookahead.length
      rw [State.view_get_lookahead found] at shown
      exact absurd shown (by simp)
  · refine .inl ⟨token, ?_, State.view_get_lookahead found⟩
    simp only [pull, runOn_bind, runOn_get, found, runOn_set, runOn_pure, State.queued,
      List.tail_cons]

/-- Queueing looks at the first item that was not looked at. -/
theorem queue_outcome {state : State} (ready : state.Ready) :
    (∃ token, runOn queue state = (.ok token, state.queued token) ∧
      state.view.get state.lookahead.length = .ok token) ∨
    (∃ fault after, runOn queue state = (.error fault, after) ∧
      state.view.get state.lookahead.length = .error fault ∧ state.Kept after) := by
  rcases pull_outcome ready with ⟨token, ran, shown⟩ | ⟨fault, after, ran, shown, kept⟩
  · refine .inl ⟨token, ?_, shown⟩
    simp only [queue, runOn_bind, ran, runOn_modify, runOn_pure, State.queued]
  · refine .inr ⟨fault, after, ?_, shown, kept⟩
    simp only [queue, runOn_bind, ran]

/-- Queueing several tokens looks at the items behind those that were looked at. -/
theorem queueMore_outcome (count : Nat) {state : State} (ready : state.Ready) :
    (∃ token after, runOn (queueMore count) state = (.ok token, after) ∧
      state.view.get (state.lookahead.length + count) = .ok token ∧ state.Alike after) ∨
    (∃ fault after index, runOn (queueMore count) state = (.error fault, after) ∧
      index ≤ state.lookahead.length + count ∧ state.view.get index = .error fault ∧
      state.Kept after) := by
  induction count generalizing state with
  | zero =>
    rcases queue_outcome ready with ⟨token, ran, shown⟩ | ⟨fault, after, ran, shown, kept⟩
    · exact .inl ⟨token, _, ran, shown, State.alike_queued ready shown⟩
    · exact .inr ⟨fault, after, _, ran, Nat.le_refl _, shown, kept⟩
  | succ count inductionHypothesis =>
    rcases queue_outcome ready with ⟨token, ran, shown⟩ | ⟨fault, after, ran, shown, kept⟩
    · have alike : state.Alike (state.queued token) := State.alike_queued ready shown
      have longer : (state.queued token).lookahead.length = state.lookahead.length + 1 := by
        simp [State.queued]
      have unfolded : runOn (queueMore (count + 1)) state =
          runOn (queueMore count) (state.queued token) := by
        simp only [queueMore, runOn_bind, ran]
      rw [unfolded]
      rcases inductionHypothesis alike.ready with
        ⟨last, after, ran, found, further⟩ | ⟨fault, after, index, ran, bound, found, kept⟩
      · refine .inl ⟨last, after, ran, ?_, alike.trans further⟩
        rwa [longer, alike.view, Nat.add_right_comm] at found
      · refine .inr ⟨fault, after, index, ran, ?_, ?_, alike.trans_kept kept⟩
        · omega
        · rwa [alike.view] at found
    · refine .inr ⟨fault, after, state.lookahead.length, ?_, Nat.le_add_right _ _, shown, kept⟩
      simp only [queueMore, runOn_bind, ran]

/-- Looking ahead shows the view and leaves it as it is, unless a fault stands before
the item that is looked at. -/
theorem peek_outcome (distance : Nat) {state : State} (ready : state.Ready) :
    (∃ token after, runOn (peek distance) state = (.ok token, after) ∧
      state.view.get distance = .ok token ∧ state.Alike after) ∨
    (∃ fault after index, runOn (peek distance) state = (.error fault, after) ∧
      index ≤ distance ∧ state.view.get index = .error fault ∧ state.Kept after) := by
  rcases looked : state.lookahead[distance]? with _ | token
  · have unfolded : runOn (peek distance) state =
        runOn (queueMore (distance - state.lookahead.length)) state := by
      simp only [peek, runOn_bind, runOn_get, looked]
    have far : state.lookahead.length + (distance - state.lookahead.length) = distance := by
      have behind : state.lookahead.length ≤ distance := List.getElem?_eq_none_iff.mp looked
      omega
    rw [unfolded]
    simpa only [far] using queueMore_outcome (distance - state.lookahead.length) ready
  · refine .inl ⟨token, state, ?_, State.view_get_of_lookahead looked, .refl ready⟩
    simp only [peek, runOn_bind, runOn_get, looked, runOn_pure]

/-- Consuming takes the first item of the view. -/
theorem advance_outcome {state : State} (ready : state.Ready) :
    (∃ token after, runOn advance state = (.ok token, after) ∧ state.Consumes token after) ∨
    (∃ fault after, runOn advance state = (.error fault, after) ∧
      state.view.head = .error fault ∧ state.Kept after) := by
  rcases looked : state.lookahead with _ | ⟨token, rest⟩
  · have unfolded : runOn advance state = runOn pull state := by
      simp only [advance, runOn_bind, runOn_get, looked]
    rw [unfolded]
    rcases pull_outcome ready with ⟨token, ran, shown⟩ | ⟨fault, after, ran, shown, kept⟩
    all_goals rw [looked] at shown
    · rw [looked] at ran
      exact .inl ⟨token, _, ran, State.consumes_taken ready looked shown⟩
    · exact .inr ⟨fault, after, ran, shown, kept⟩
  · refine .inl ⟨token, _, ?_, State.consumes_looked ready looked⟩
    simp only [advance, runOn_bind, runOn_get, looked, runOn_set, runOn_pure]

/-- A wanted token is consumed, or nothing is. -/
theorem expect_outcome (kind : Token.Kind) {state : State} (ready : state.Ready) :
    (∃ token after, runOn (expect kind) state = (.ok token, after) ∧ token.kind = kind ∧
      state.Consumes token after) ∨
    (∃ fault after, runOn (expect kind) state = (.error fault, after) ∧ state.Kept after) := by
  unfold expect currentKind current
  simp only [runOn_bind]
  rcases peek_outcome 0 ready with
    ⟨token, looked, ran, shown, alike⟩ | ⟨fault, after, index, ran, _, _, kept⟩
  · simp only [ran, runOn_pure]
    split
    case isTrue same =>
      rcases advance_outcome alike.ready with
        ⟨next, after, ran, consumes⟩ | ⟨fault, after, ran, bad, kept⟩
      · have whole := alike.trans_consumes consumes
        have heads : state.view.head = .ok next := by
          rw [whole.view]
          rfl
        obtain rfl : token = next := Except.ok.inj (shown.symm.trans heads)
        exact .inl ⟨token, after, ran, same, whole⟩
      · exact .inr ⟨fault, after, ran, alike.trans_kept kept⟩
    case isFalse _ =>
      rcases peek_outcome 0 alike.ready with
        ⟨token, after, ran, _, again⟩ | ⟨fault, after, index, ran, _, _, kept⟩
      · exact .inr ⟨_, after, by simp only [unexpected, current, runOn_bind, ran]; rfl,
          (alike.trans again).toKept⟩
      · exact .inr ⟨fault, after, by simp only [unexpected, current, runOn_bind, ran],
          alike.trans_kept kept⟩
  · exact .inr ⟨fault, after, by simp only [ran], kept⟩

end StartEnd.Parse
