import StartEnd.Proofs.Parse.View

/-!
# What asking the stream gives

A stream can be asked for items without end: behind its own items it gives end-of-input
tokens where the last token ended. Asking once gives the first of these items and leaves
the others, whatever the first one is. Looking ahead and consuming are described by how
they ask, for any content of the tables.
-/

namespace StartEnd.Parse

namespace State

/-- The items that asking the stream again and again gives. -/
def supply (state : State) : Stream' Item := state.stream ++ₛ Stream'.const (.ok state.ending)

/-- The state behind asking the stream once, whatever it gave. -/
def asked (state : State) : State :=
  { state with
    stream := state.stream.tail
    lastSpan := state.supply.head.toOption.elim state.lastSpan Token.span
    pulled := state.pulled + 1 }

/-- The state with a token kept for later. -/
def keeping (state : State) (token : Token) : State :=
  { state with
    lookahead := state.lookahead ++ [token]
    widest := max state.widest (state.lookahead ++ [token]).length }

/-- What is ahead are the tokens that were looked at, and then what asking gives. -/
theorem view_eq (state : State) :
    state.view = state.lookahead.map Except.ok ++ₛ state.supply :=
  Stream'.append_append_stream _ _ _

/-- Behind asking once, asking gives the other items. -/
theorem supply_asked (state : State) : state.asked.supply = state.supply.tail := by
  obtain ⟨stream, lookahead, lastSpan, tables, log, depth, pulled, widest⟩ := state
  rcases stream with _ | ⟨fault | token, rest⟩
  · rfl
  · rfl
  · rfl

/-- What asking gives begins with the token that asking once gives. -/
theorem supply_of_head {state : State} {token : Token} (given : state.supply.head = .ok token) :
    state.supply = Stream'.cons (.ok token) state.asked.supply := by
  rw [supply_asked, ← given]
  exact (Stream'.eta _).symm

/-- Keeping the token that was asked for leaves what is ahead. -/
theorem view_keeping {state : State} {token : Token} (given : state.supply.head = .ok token) :
    (state.asked.keeping token).view = state.view := by
  have behind : (state.asked.keeping token).supply = state.asked.supply := rfl
  rw [view_eq, view_eq, behind, supply_of_head given]
  simp [keeping, asked, Stream'.append_append_stream, Stream'.cons_append_stream]

/-- The first item that was not looked at is what asking gives. -/
theorem view_get_length (state : State) :
    state.view.get state.lookahead.length = state.supply.head := by
  rw [view_eq]
  simpa using Stream'.get_append_right 0 (state.lookahead.map Except.ok : List Item) state.supply

/-- One for an item that is no ending, and nothing for an ending. -/
def weight (item : Item) : Nat :=
  [item].countP fun item => item.toOption.all (·.kind ≠ .endOfInput)

/-- A token that is no ending counts. -/
theorem weight_visible {token : Token} (visible : token.kind ≠ .endOfInput) :
    weight (.ok token) = 1 := by
  simp [weight, Except.toOption, visible]

/-- Asking once takes an item from those that are unread. -/
theorem unread_asked (state : State) :
    state.asked.unread + weight state.supply.head = state.unread := by
  unfold unread upcoming asked supply weight
  rcases state.stream with _ | ⟨item, rest⟩
  · rfl
  · have front : item :: rest = [item] ++ rest := rfl
    rw [Stream'.cons_append_stream, Stream'.head_cons, List.tail_cons, front]
    simp only [List.countP_append]
    omega

/-- A token that is kept is unread. -/
theorem unread_keeping (state : State) (token : Token) :
    (state.keeping token).unread = state.unread + weight (.ok token) := by
  simp only [unread, upcoming, keeping, weight, List.map_append, List.countP_append,
    List.map_cons, List.map_nil]
  omega

end State

/-- Taking an item is asking once. -/
theorem runOn_pull (state : State) : runOn pull state = (state.supply.head, state.asked) := by
  unfold pull State.asked State.supply State.ending State.finalSpan
  rcases found : state.stream with _ | ⟨fault | token, rest⟩
  · simp only [runOn_bind, runOn_get, found, runOn_set, runOn_pure]
    rfl
  · simp only [runOn_bind, runOn_get, found, runOn_set, runOn_throw]
    rfl
  · simp only [runOn_bind, runOn_get, found, runOn_set, runOn_pure]
    rfl

/-- Queueing asks once and keeps a token. -/
theorem runOn_queue (state : State) :
    runOn queue state =
      match state.supply.head with
      | .ok token => (.ok token, state.asked.keeping token)
      | .error fault => (.error fault, state.asked) := by
  simp only [queue, runOn_bind, runOn_pull]
  rcases state.supply.head with fault | token
  · rfl
  · rfl

/-- Looking ahead takes what was looked at before, and queues the rest. -/
theorem runOn_peek (distance : Nat) (state : State) :
    runOn (peek distance) state =
      match state.lookahead[distance]? with
      | some token => (.ok token, state)
      | none => runOn (queueMore (distance - state.lookahead.length)) state := by
  simp only [peek, runOn_bind, runOn_get]
  rcases state.lookahead[distance]? with _ | token
  · rfl
  · rfl

/-- A look at the next token keeps it for the next call. -/
theorem lookahead_of_current {state after : State} {token : Token}
    (looked : runOn current state = (.ok token, after)) :
    ∃ rest, after.lookahead = token :: rest := by
  unfold current at looked
  rw [runOn_peek] at looked
  rcases ahead : state.lookahead with _ | ⟨front, rest⟩
  · simp only [ahead, List.length_nil, Nat.sub_zero, queueMore, runOn_queue,
      List.getElem?_nil] at looked
    rcases given : state.supply.head with fault | found
    · simp [given] at looked
    · obtain ⟨rfl, rfl⟩ : found = token ∧ state.asked.keeping found = after := by
        simpa [given] using looked
      simp [State.keeping, State.asked, ahead]
  · simp only [ahead, List.getElem?_cons_zero] at looked
    obtain ⟨same, rfl⟩ := Prod.mk.inj looked
    obtain rfl := Except.ok.inj same
    exact ⟨rest, ahead⟩

/-- A token that is kept is the one that a look shows. -/
theorem runOn_current_of_lookahead {state : State} {token : Token} {rest : List Token}
    (kept : state.lookahead = token :: rest) : runOn current state = (.ok token, state) := by
  rw [current, runOn_peek, kept]
  rfl

/-- Consuming takes what was looked at before, or asks once. -/
theorem runOn_advance (state : State) :
    runOn advance state =
      match state.lookahead with
      | token :: rest => (.ok token, { state with lookahead := rest })
      | [] => (state.supply.head, state.asked) := by
  simp only [advance, runOn_bind, runOn_get]
  rcases found : state.lookahead with _ | ⟨token, rest⟩
  · exact runOn_pull state
  · rfl

/-- Queueing gives the first token that was not looked at, and leaves what is ahead. -/
theorem view_queue {state after : State} {token : Token}
    (ran : runOn queue state = (.ok token, after)) :
    after.view = state.view ∧ after.lookahead.length = state.lookahead.length + 1 ∧
      state.view.get state.lookahead.length = .ok token := by
  rw [runOn_queue] at ran
  rcases given : state.supply.head with fault | next
  · simp [given] at ran
  · obtain ⟨rfl, rfl⟩ : next = token ∧ state.asked.keeping next = after := by
      simpa [given] using ran
    refine ⟨State.view_keeping given, by simp [State.keeping, State.asked], ?_⟩
    rw [State.view_get_length, given]

/-- Queueing several tokens gives the last of them, and leaves what is ahead. -/
theorem view_queueMore (count : Nat) {state after : State} {token : Token}
    (ran : runOn (queueMore count) state = (.ok token, after)) :
    after.view = state.view ∧
      state.view.get (state.lookahead.length + count) = .ok token := by
  induction count generalizing state with
  | zero =>
    obtain ⟨same, _, shown⟩ := view_queue ran
    exact ⟨same, shown⟩
  | succ count inductionHypothesis =>
    simp only [queueMore, runOn_bind] at ran
    rcases queued : runOn queue state with ⟨fault | next, between⟩
    · simp [queued] at ran
    · rw [queued] at ran
      obtain ⟨same, longer, _⟩ := view_queue queued
      obtain ⟨again, shown⟩ := inductionHypothesis ran
      refine ⟨again.trans same, ?_⟩
      rwa [longer, same, Nat.add_right_comm] at shown

/-- Looking ahead shows the token that is so far ahead, and leaves what is ahead. -/
theorem view_peek {distance : Nat} {state after : State} {token : Token}
    (ran : runOn (peek distance) state = (.ok token, after)) :
    after.view = state.view ∧ state.view.get distance = .ok token := by
  rw [runOn_peek] at ran
  rcases looked : state.lookahead[distance]? with _ | found
  · rw [looked] at ran
    obtain ⟨same, shown⟩ := view_queueMore _ ran
    have behind : state.lookahead.length ≤ distance := List.getElem?_eq_none_iff.mp looked
    rw [Nat.add_sub_cancel' behind] at shown
    exact ⟨same, shown⟩
  · rw [looked] at ran
    obtain ⟨given, rfl⟩ := Prod.mk.inj ran
    exact ⟨rfl, Except.ok.inj given ▸ State.view_get_of_lookahead looked⟩

/-- Consuming takes the first token that is ahead. -/
theorem view_advance {state after : State} {token : Token}
    (ran : runOn advance state = (.ok token, after)) :
    state.view = Stream'.cons (.ok token) after.view := by
  rw [runOn_advance] at ran
  rcases looked : state.lookahead with _ | ⟨next, rest⟩
  · rw [looked] at ran
    obtain ⟨given, rfl⟩ := Prod.mk.inj ran
    have unlooked : state.asked.lookahead = [] := looked
    rw [State.view_eq, State.view_eq, looked, unlooked]
    exact State.supply_of_head given
  · rw [looked] at ran
    obtain ⟨given, rfl⟩ := Prod.mk.inj ran
    obtain rfl := Except.ok.inj given
    rw [State.view_eq, State.view_eq, looked]
    rfl

/-- Queueing a token leaves as many items unread. -/
theorem unread_queue {state after : State} {token : Token}
    (ran : runOn queue state = (.ok token, after)) : after.unread = state.unread := by
  rw [runOn_queue] at ran
  rcases given : state.supply.head with fault | next
  · simp [given] at ran
  · obtain ⟨rfl, rfl⟩ : next = token ∧ state.asked.keeping next = after := by
      simpa [given] using ran
    rw [State.unread_keeping, ← state.unread_asked, given]

/-- Queueing several tokens leaves as many items unread. -/
theorem unread_queueMore (count : Nat) {state after : State} {token : Token}
    (ran : runOn (queueMore count) state = (.ok token, after)) :
    after.unread = state.unread := by
  induction count generalizing state with
  | zero => exact unread_queue ran
  | succ count inductionHypothesis =>
    simp only [queueMore, runOn_bind] at ran
    rcases queued : runOn queue state with ⟨fault | next, between⟩
    · simp [queued] at ran
    · rw [queued] at ran
      exact (inductionHypothesis ran).trans (unread_queue queued)

/-- Looking ahead leaves as many items unread. -/
theorem unread_peek {distance : Nat} {state after : State} {token : Token}
    (ran : runOn (peek distance) state = (.ok token, after)) : after.unread = state.unread := by
  rw [runOn_peek] at ran
  rcases looked : state.lookahead[distance]? with _ | found
  · rw [looked] at ran
    exact unread_queueMore _ ran
  · rw [looked] at ran
    obtain ⟨_, rfl⟩ := Prod.mk.inj ran
    rfl

/-- Consuming a token takes it from the items that are unread. -/
theorem unread_advance {state after : State} {token : Token}
    (ran : runOn advance state = (.ok token, after)) :
    after.unread + State.weight (.ok token) = state.unread := by
  rw [runOn_advance] at ran
  rcases looked : state.lookahead with _ | ⟨next, rest⟩
  · rw [looked] at ran
    obtain ⟨given, rfl⟩ := Prod.mk.inj ran
    rw [← given]
    exact state.unread_asked
  · rw [looked] at ran
    obtain ⟨same, rfl⟩ := Prod.mk.inj ran
    obtain rfl := Except.ok.inj same
    have front : (next :: rest).map (Except.ok : Token → Item) =
        [.ok next] ++ rest.map Except.ok := rfl
    unfold State.unread State.upcoming State.weight
    rw [looked, front]
    simp only [List.countP_append]
    omega

end StartEnd.Parse
