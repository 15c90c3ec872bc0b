import Mathlib.Data.List.Induction
import StartEnd.Proofs.Parse.Supply

/-!
# Looking ahead leaves the stream in order

A parse can be called to look any number of tokens ahead and to consume the next one, in any
order. A look takes items from the stream that nobody consumes yet, and a fault may come while it
is half done. What was looked at before the fault stays kept, and the next call goes on behind it.

An account says where the items are that the stream has given: the tokens among them were
consumed or are kept, in their order, and each fault was the result of a call. Every call keeps
the account, so it holds behind any calls.
-/

namespace StartEnd.Parse

/-- The fault in a result, if it is one. -/
@[simp]
def faultOf {α : Type} : Except Fault α → Option Fault
  | .ok _ => none
  | .error fault => some fault

/-- The tokens of a stream, and behind them one token again and again. -/
def followedBy (ending : Token) (stream : List Item) : Stream' Token :=
  stream.filterMap Except.toOption ++ₛ Stream'.const ending

/-- Where the last token of a stream ended, or the default position if there is none. -/
def endOf (stream : List Item) : Position :=
  ((stream.filterMap Except.toOption).getLast?.elim {} Token.span).stop

/-- The tokens that a stream delivers: its own ones, and then endings where the last of them
ended. -/
def delivered (stream : List Item) : Stream' Token := followedBy (.ending (endOf stream)) stream

/-! ## Calls -/

/-- A call that looks ahead or consumes a token. -/
inductive Request where
  | peek (distance : Nat)
  | current
  | currentKind
  | startsStatement
  | advance
  | expect (kind : Token.Kind)
  | expectBodyEnd (closing : Token.Kind)
deriving DecidableEq

/-- What a call answers. -/
inductive Answer where
  | token (token : Token)
  | kind (kind : Token.Kind)
  | verdict (holds : Bool)

/-- The token that is the answer, if it is one. -/
def Answer.token? : Answer → Option Token
  | .token given => some given
  | _ => none

namespace Request

/-- The parser that a call runs. -/
def run : Request → Parse Answer
  | .peek distance => do return .token (← Parse.peek distance)
  | .current => do return .token (← Parse.current)
  | .currentKind => do return .kind (← Parse.currentKind)
  | .startsStatement => do return .verdict (← Parse.startsStatement)
  | .advance => do return .token (← Parse.advance)
  | .expect kind => do return .token (← Parse.expect kind)
  | .expectBodyEnd closing => do return .token (← Parse.expectBodyEnd closing)

/-- Whether a call that gives an answer has consumed a token. -/
def consumes : Request → Bool
  | .advance | .expect _ | .expectBodyEnd _ => true
  | _ => false

/-- The token that a call has consumed if this is its answer. -/
def consumed? (request : Request) (answer : Answer) : Option Token :=
  if request.consumes then answer.token? else none

/-- The kind that a call wants the next token to have. -/
def wanted? : Request → Option Token.Kind
  | .expect kind | .expectBodyEnd kind => some kind
  | _ => none

/-- The state behind a call. -/
def next (request : Request) (state : State) : State := (runOn request.run state).2

/-- The token that a call consumes. -/
def taken? (request : Request) (state : State) : Option Token :=
  (runOn request.run state).1.toOption.bind request.consumed?

/-- The next token, if a call wants one of another kind. -/
def refused? (request : Request) (state : State) : Option Token :=
  match request.wanted?, (runOn Parse.current state).1 with
  | some kind, .ok token => if token.kind = kind then none else some token
  | _, _ => none

/-- The fault of the stream that a call meets: its own fault, unless it refuses the next
token. -/
def met? (request : Request) (state : State) : Option Fault :=
  if (request.refused? state).isSome then none else faultOf (runOn request.run state).1

end Request

namespace State

/-- The state behind calls in a row. -/
def following (state : State) : List Request → State
  | [] => state
  | request :: rest => (request.next state).following rest

/-- The tokens that calls in a row consume. -/
def taken (state : State) : List Request → List Token
  | [] => []
  | request :: rest => (request.taken? state).toList ++ (request.next state).taken rest

/-- The faults of the stream that calls in a row meet, one for each call that meets one. -/
def met (state : State) : List Request → List Fault
  | [] => []
  | request :: rest => (request.met? state).toList ++ (request.next state).met rest

/-! ## Accounts -/

/-- Of the items that were asked for, the tokens were taken or are kept, and the faults were
met. -/
structure Accounts (source : Stream' Item) (taken : List Token) (met : List Fault)
    (state : State) : Prop where
  supply : state.supply = source.drop state.pulled
  tokens : (source.take state.pulled).filterMap Except.toOption = taken ++ state.lookahead
  faults : (source.take state.pulled).filterMap faultOf = met

variable {source : Stream' Item} {taken : List Token} {met : List Fault} {state : State}

namespace Accounts

/-- Asking once gives the next item of the source. -/
theorem asked (accounts : state.Accounts source taken met) :
    state.asked.supply = source.drop state.asked.pulled ∧
      source.take state.asked.pulled = source.take state.pulled ++ [state.supply.head] := by
  have next : state.supply.head = source.get state.pulled := by
    rw [accounts.supply, Stream'.head_drop]
  refine ⟨?_, ?_⟩
  · rw [supply_asked, accounts.supply, Stream'.tail_drop]
    rfl
  · rw [next]
    exact Stream'.take_succ' state.pulled

/-- A token that is asked for and kept leaves the account as it is. -/
theorem keeping {token : Token} (accounts : state.Accounts source taken met)
    (given : state.supply.head = .ok token) :
    (state.asked.keeping token).Accounts source taken met := by
  obtain ⟨supply, more⟩ := accounts.asked
  refine ⟨supply, ?_, ?_⟩
  · show (source.take state.asked.pulled).filterMap _ = taken ++ (state.lookahead ++ [token])
    rw [more, List.filterMap_append, accounts.tokens, given, List.append_assoc]
    rfl
  · show (source.take state.asked.pulled).filterMap _ = met
    rw [more, List.filterMap_append, accounts.faults, given]
    exact List.append_nil met

/-- A token that is asked for with none kept is taken. -/
theorem taking {token : Token} (accounts : state.Accounts source taken met)
    (given : state.supply.head = .ok token) (none : state.lookahead = []) :
    state.asked.Accounts source (taken ++ [token]) met := by
  obtain ⟨supply, more⟩ := accounts.asked
  refine ⟨supply, ?_, ?_⟩
  · show _ = taken ++ [token] ++ state.lookahead
    rw [more, List.filterMap_append, accounts.tokens, given, none, List.append_nil,
      List.append_nil]
    rfl
  · rw [more, List.filterMap_append, accounts.faults, given]
    exact List.append_nil met

/-- A fault that is asked for is met. -/
theorem meeting {fault : Fault} (accounts : state.Accounts source taken met)
    (given : state.supply.head = .error fault) :
    state.asked.Accounts source taken (met ++ [fault]) := by
  obtain ⟨supply, more⟩ := accounts.asked
  refine ⟨supply, ?_, ?_⟩
  · show _ = taken ++ state.lookahead
    rw [more, List.filterMap_append, accounts.tokens, given]
    exact List.append_nil _
  · rw [more, List.filterMap_append, accounts.faults, given]
    rfl

/-- A token that is kept is taken without asking. -/
theorem dropping {token : Token} {rest : List Token} (accounts : state.Accounts source taken met)
    (kept : state.lookahead = token :: rest) :
    { state with lookahead := rest }.Accounts source (taken ++ [token]) met := by
  refine ⟨accounts.supply, ?_, accounts.faults⟩
  show (source.take state.pulled).filterMap _ = taken ++ [token] ++ rest
  rw [accounts.tokens, kept, List.append_assoc]
  rfl

end Accounts

end State

/-- A parser accounts for the items that it asks for: a value takes what is told from it, and a
fault was met. -/
def AccountsFor {α : Type} (parser : Parse α) (takes : α → Option Token) : Prop :=
  ∀ (source : Stream' Item) (taken : List Token) (met : List Fault) (state : State),
    state.Accounts source taken met →
    (runOn parser state).2.Accounts source
      (taken ++ ((runOn parser state).1.toOption.bind takes).toList)
      (met ++ (faultOf (runOn parser state).1).toList)

/-- A parser that accounts for its items and takes nothing. -/
def Looks {α : Type} (parser : Parse α) : Prop := AccountsFor parser fun _ => none

section Accounting

variable {α β : Type}

/-- A value without a change takes nothing. -/
theorem Looks.pure (value : α) : Looks (Pure.pure value : Parse α) := by
  intro source taken met state accounts
  simpa [runOn_pure, faultOf, Except.toOption] using accounts

/-- The state can be read. -/
theorem AccountsFor.get {second : State → Parse α} {takes : α → Option Token}
    (rest : ∀ state, AccountsFor (second state) takes) :
    AccountsFor (MonadState.get >>= second) takes := fun source taken met state accounts =>
  rest state source taken met state accounts

/-- Behind a look, what follows accounts for the items. -/
theorem AccountsFor.behind {first : Parse β} {second : β → Parse α} {takes : α → Option Token}
    (looks : Looks first) (rest : ∀ value, AccountsFor (second value) takes) :
    AccountsFor (first >>= second) takes := by
  intro source taken met state accounts
  have between := looks source taken met state accounts
  rw [runOn_bind]
  rcases ran : runOn first state with ⟨fault | value, after⟩
  · simpa [ran, Except.toOption] using between
  · have between : after.Accounts source taken met := by
      simpa [ran, Except.toOption] using between
    exact rest value source taken met after between

/-- What is taken can be told from a function of the value. -/
theorem AccountsFor.map {parser : Parse β} {takes : β → Option Token} {told : α → Option Token}
    (accountsFor : AccountsFor parser takes) (give : β → α)
    (same : ∀ value, told (give value) = takes value) :
    AccountsFor (do return give (← parser)) told := by
  intro source taken met state accounts
  have between := accountsFor source taken met state accounts
  rw [runOn_bind]
  rcases ran : runOn parser state with ⟨fault | value, after⟩
  · simpa [ran, Except.toOption] using between
  · simpa [ran, runOn_pure, Except.toOption, same] using between

end Accounting

/-- Queueing is a look. -/
theorem queue_looks : Looks queue := by
  intro source taken met state accounts
  rw [runOn_queue]
  rcases given : state.supply.head with fault | token
  · simpa [Except.toOption] using accounts.meeting given
  · simpa [Except.toOption] using accounts.keeping given

/-- Queueing several tokens is a look: a fault keeps what was queued before it. -/
theorem queueMore_looks (count : Nat) : Looks (queueMore count) := by
  induction count with
  | zero => exact queue_looks
  | succ count inductionHypothesis => exact .behind queue_looks fun _ => inductionHypothesis

/-- Looking at a token is a look. -/
theorem peek_looks (distance : Nat) : Looks (peek distance) := by
  refine .get fun state => ?_
  dsimp only
  split
  · exact Looks.pure _
  · exact queueMore_looks _

/-- Looking at the next token is a look. -/
theorem current_looks : Looks current := peek_looks 0

/-- Looking at its kind is a look. -/
theorem currentKind_looks : Looks currentKind := current_looks.map _ fun _ => rfl

/-- Asking whether a statement begins is a look. -/
theorem startsStatement_looks : Looks startsStatement :=
  .behind currentKind_looks fun _ => .get fun _ => Looks.pure _

/-- Consuming takes the token that it gives. -/
theorem advance_accountsFor : AccountsFor advance some := by
  intro source taken met state accounts
  rw [runOn_advance]
  rcases kept : state.lookahead with _ | ⟨token, rest⟩
  · rcases given : state.supply.head with fault | token
    · simpa [Except.toOption, given] using accounts.meeting given
    · simpa [Except.toOption, given] using accounts.taking given kept
  · simpa [Except.toOption] using accounts.dropping kept

/-! ## Calls account for their items -/

/-- A token that is wanted is looked at, and consumed only if it is of the right kind. -/
theorem runOn_wanted (kind : Token.Kind) (expected : List Token.Kind) (state : State) :
    runOn (do if (← currentKind) = kind then advance else unexpected expected) state =
      match runOn current state with
      | (.ok token, after) =>
        if token.kind = kind then runOn advance after
        else (.error (Fault.unexpected token expected), after)
      | (.error fault, after) => (.error fault, after) := by
  simp only [currentKind, runOn_bind]
  rcases looked : runOn current state with ⟨fault | token, after⟩
  · rfl
  · obtain ⟨rest, kept⟩ := lookahead_of_current looked
    simp only [runOn_pure]
    split
    · rfl
    · simp only [unexpected, runOn_bind, runOn_current_of_lookahead kept]
      rfl

namespace Request

/-- A call that wants a kind consumes the next token if it is of that kind, and otherwise faults
at it. -/
theorem runOn_wanting {request : Request} {kind : Token.Kind}
    (wants : request.wanted? = some kind) : ∃ expected, ∀ state,
      runOn request.run state =
        match runOn Parse.current state with
        | (.ok token, after) =>
          if token.kind = kind then runOn Request.advance.run after
          else (.error (Fault.unexpected token expected), after)
        | (.error fault, after) => (.error fault, after) := by
  have asked (expected : List Token.Kind) (state : State) :
      runOn (do return Answer.token (← (do
        if (← Parse.currentKind) = kind then Parse.advance else unexpected expected))) state =
        match runOn Parse.current state with
        | (.ok token, after) =>
          if token.kind = kind then runOn Request.advance.run after
          else (.error (Fault.unexpected token expected), after)
        | (.error fault, after) => (.error fault, after) := by
    rw [runOn_bind, runOn_wanted]
    rcases runOn Parse.current state with ⟨fault | token, after⟩
    · rfl
    · by_cases same : token.kind = kind
      · simp only [if_pos same]
        exact (runOn_bind _ _ after).symm
      · simp only [if_neg same]
  cases request with
  | expect kind =>
    obtain rfl := Option.some.inj wants
    exact ⟨_, asked _⟩
  | expectBodyEnd closing =>
    obtain rfl := Option.some.inj wants
    exact ⟨_, asked _⟩
  | _ => exact absurd wants (by simp [wanted?])

/-- A call that wants no kind refuses nothing. -/
theorem refused?_of_unwanting {request : Request} (unwanting : request.wanted? = none)
    (state : State) : request.refused? state = none := by
  simp [refused?, unwanting]

/-- A call that wants no kind accounts for its items. -/
theorem accountsFor {request : Request} (unwanting : request.wanted? = none) :
    AccountsFor request.run request.consumed? := by
  cases request with
  | peek distance => exact (peek_looks distance).map _ fun _ => rfl
  | current => exact current_looks.map _ fun _ => rfl
  | currentKind => exact currentKind_looks.map _ fun _ => rfl
  | startsStatement => exact startsStatement_looks.map _ fun _ => rfl
  | advance => exact advance_accountsFor.map _ fun _ => rfl
  | _ => exact absurd unwanting (by simp [wanted?])

end Request

variable {source : Stream' Item} {taken : List Token} {met : List Fault} {state : State}

/-- Every call keeps the account. -/
theorem State.Accounts.call (accounts : state.Accounts source taken met) (request : Request) :
    (request.next state).Accounts source (taken ++ (request.taken? state).toList)
      (met ++ (request.met? state).toList) := by
  rcases wants : request.wanted? with _ | kind
  · simp only [Request.met?, Request.refused?_of_unwanting wants]
    exact Request.accountsFor wants source taken met state accounts
  · obtain ⟨expected, ran⟩ := Request.runOn_wanting wants
    have looked := current_looks source taken met state accounts
    simp only [Request.next, Request.taken?, Request.met?, Request.refused?, wants, ran]
    rcases shown : runOn current state with ⟨fault | token, after⟩
    · simpa [shown, Except.toOption] using looked
    · have between : after.Accounts source taken met := by
        simpa [shown, Except.toOption] using looked
      by_cases same : token.kind = kind
      · have consumed : request.consumed? = Request.advance.consumed? := by
          cases request with
          | expect kind => rfl
          | expectBodyEnd closing => rfl
          | _ => exact absurd wants (by simp [Request.wanted?])
        simp only [same, consumed, if_true]
        exact Request.accountsFor rfl source taken met after between
      · simpa [same, Except.toOption] using between

/-- Calls in a row keep the account. -/
theorem State.Accounts.calls (accounts : state.Accounts source taken met)
    (requests : List Request) :
    (state.following requests).Accounts source (taken ++ state.taken requests)
      (met ++ state.met requests) := by
  induction requests generalizing state taken met with
  | nil =>
    rw [State.taken, State.met, List.append_nil, List.append_nil]
    exact accounts
  | cons request rest inductionHypothesis =>
    have behind := inductionHypothesis (accounts.call request)
    rwa [List.append_assoc, List.append_assoc] at behind

/-! ## What a fresh parse is given -/

/-- The items that are given to a parse of a stream: its own ones, and then endings. -/
def given (stream : List Item) : Stream' Item :=
  stream ++ₛ Stream'.const (.ok (.ending (endOf stream)))

/-- A parse that was not called yet. -/
def State.fresh (stream : List Item) (tables : Tables) : State :=
  { stream := stream, tables := tables }

/-- The last span that is told from a stream is the one of its last token. -/
theorem finalSpan_eq (stream : List Item) (start : Span) :
    stream.foldl (fun span item => item.toOption.elim span Token.span) start =
      (stream.filterMap Except.toOption).getLast?.elim start Token.span := by
  induction stream using List.reverseRecOn with
  | nil => rfl
  | append_singleton front item inductionHypothesis =>
    rw [List.foldl_append, inductionHypothesis, List.filterMap_append]
    rcases item with fault | token <;> simp [Except.toOption]

/-- A fresh parse is given the items of the stream, and then endings. -/
theorem supply_fresh (stream : List Item) (tables : Tables) :
    (State.fresh stream tables).supply = given stream := by
  have last : (State.fresh stream tables).finalSpan.stop = endOf stream :=
    congrArg Span.stop (finalSpan_eq stream {})
  rw [State.supply, State.ending, last]
  rfl

/-- A fresh parse has an empty account. -/
theorem accounts_fresh (stream : List Item) (tables : Tables) :
    (State.fresh stream tables).Accounts (given stream) [] [] :=
  ⟨supply_fresh stream tables, rfl, rfl⟩

/-- Of one item again and again, any number of items is that one. -/
theorem take_const {α : Type} (count : Nat) (value : α) :
    (Stream'.const value).take count = List.replicate count value := by
  induction count with
  | zero => rfl
  | succ count inductionHypothesis =>
    rw [Stream'.take_succ, Stream'.tail_const, inductionHypothesis]
    rfl

/-- The tokens among the first items of a stream with endings behind it are delivered first. -/
theorem tokens_take (ending : Token) (stream : List Item) (count : Nat) :
    ∃ length, ((stream ++ₛ Stream'.const (.ok ending)).take count).filterMap Except.toOption =
      (followedBy ending stream).take length := by
  induction stream generalizing count with
  | nil =>
    refine ⟨count, ?_⟩
    rw [Stream'.nil_append_stream, take_const]
    show _ = (Stream'.const ending).take count
    rw [take_const, List.filterMap_replicate]
    rfl
  | cons item rest inductionHypothesis =>
    rcases count with _ | count
    · exact ⟨0, rfl⟩
    · obtain ⟨length, same⟩ := inductionHypothesis count
      rw [Stream'.cons_append_stream, Stream'.take_succ_cons]
      rcases item with fault | token
      · exact ⟨length, same⟩
      · refine ⟨length + 1, ?_⟩
        rw [List.filterMap_cons, same]
        rfl

/-- The faults among the first items of a stream with endings behind it are its own. -/
theorem faults_take (ending : Token) (stream : List Item) (count : Nat) :
    ((stream ++ₛ Stream'.const (.ok ending)).take count).filterMap faultOf =
      (stream.take count).filterMap faultOf := by
  induction stream generalizing count with
  | nil =>
    rw [Stream'.nil_append_stream, take_const]
    simp
  | cons item rest inductionHypothesis =>
    rcases count with _ | count
    · rfl
    · rw [Stream'.cons_append_stream, Stream'.take_succ_cons, List.take_succ_cons,
        List.filterMap_cons, List.filterMap_cons, inductionHypothesis]

/-- Every item is a token or a fault. -/
theorem length_tokens_add_faults (items : List Item) :
    (items.filterMap Except.toOption).length + (items.filterMap faultOf).length =
      items.length := by
  induction items with
  | nil => rfl
  | cons item rest inductionHypothesis =>
    rcases item with fault | token
    · simp only [List.filterMap_cons, Except.toOption, faultOf, List.length_cons]
      omega
    · simp only [List.filterMap_cons, Except.toOption, faultOf, List.length_cons]
      omega

/-- A call to consume answers with the token that it takes. -/
theorem result_advance (state : State) :
    (runOn Request.advance.run state).1 = (runOn advance state).1.map Answer.token := by
  simp only [Request.run, runOn_bind]
  rcases runOn advance state with ⟨fault | token, after⟩
  · rfl
  · rfl

/-- A call to consume takes a token or meets a fault. -/
theorem taken_or_met_of_advance (state : State) :
    (Request.advance.taken? state).toList.length + (Request.advance.met? state).toList.length =
      1 := by
  have unrefused : Request.advance.refused? state = none := Request.refused?_of_unwanting rfl state
  simp only [Request.taken?, Request.met?, unrefused, result_advance]
  rcases (runOn advance state).1 with fault | token
  · rfl
  · rfl

/-- As many tokens are taken and faults are met as there were calls to consume, or more. -/
theorem count_advance_le (requests : List Request) (state : State) :
    requests.count .advance ≤ (state.taken requests).length + (state.met requests).length := by
  induction requests generalizing state with
  | nil => exact Nat.le_refl _
  | cons request rest inductionHypothesis =>
    have behind := inductionHypothesis (request.next state)
    simp only [State.taken, State.met, List.length_append]
    by_cases consuming : request = .advance
    · subst consuming
      have one := taken_or_met_of_advance state
      rw [List.count_cons_self]
      omega
    · rw [List.count_cons_of_ne consuming]
      omega

/-! ## Refusals -/

/-- Behind a look at the next token every look gives what it gives before it. -/
theorem runOn_peek_behind {state after : State} {token : Token}
    (looked : runOn current state = (.ok token, after)) (distance : Nat) :
    runOn (peek distance) after = runOn (peek distance) state := by
  rcases ahead : state.lookahead with _ | ⟨front, rest⟩
  · have queued : runOn queue state = (.ok token, after) := by
      simpa [current, runOn_peek, ahead, queueMore] using looked
    rcases distance with _ | distance
    · obtain ⟨rest, kept⟩ := lookahead_of_current looked
      exact (runOn_current_of_lookahead kept).trans looked.symm
    · have single : after.lookahead.length = 1 := by
        rw [(view_queue queued).2.1, ahead]
        rfl
      have beyond : after.lookahead[distance + 1]? = none :=
        List.getElem?_eq_none (by omega)
      rw [runOn_peek, runOn_peek, beyond, ahead, single]
      simp [queueMore, runOn_bind, queued]
  · have same : (.ok front, state) = ((.ok token, after) : Except Fault Token × State) :=
      (runOn_current_of_lookahead ahead).symm.trans looked
    rw [(Prod.mk.inj same).2]

/-- Behind a look at the next token consuming gives that token, as it does before it. -/
theorem runOn_advance_behind {state after : State} {token : Token}
    (looked : runOn current state = (.ok token, after)) :
    (runOn advance after).1 = .ok token ∧ (runOn advance state).1 = .ok token := by
  refine ⟨?_, ?_⟩
  · obtain ⟨rest, kept⟩ := lookahead_of_current looked
    rw [runOn_advance, kept]
  · have shown : state.view.get 0 = .ok token := (view_peek looked).2
    rw [runOn_advance]
    rcases ahead : state.lookahead with _ | ⟨front, rest⟩
    · rwa [← State.view_get_length, ahead]
    · exact (State.view_get_of_lookahead (by rw [ahead]; rfl)).symm.trans shown

namespace Request

/-- Behind a look at the next token every call gives what it gives before it. -/
theorem result_behind {state after : State} {token : Token}
    (looked : runOn Parse.current state = (.ok token, after)) (request : Request) :
    (runOn request.run after).1 = (runOn request.run state).1 := by
  have again : runOn Parse.current after = runOn Parse.current state := runOn_peek_behind looked 0
  rcases wants : request.wanted? with _ | kind
  · cases request with
    | peek distance => simp only [run, runOn_bind, runOn_peek_behind looked]
    | current => simp only [run, runOn_bind, again]
    | currentKind => simp only [run, runOn_bind, Parse.currentKind, again]
    | startsStatement =>
      simp only [run, runOn_bind, Parse.startsStatement, Parse.currentKind, again]
    | advance =>
      obtain ⟨taken, same⟩ := runOn_advance_behind looked
      rw [result_advance, result_advance, taken, same]
    | _ => exact absurd wants (by simp [wanted?])
  · obtain ⟨expected, ran⟩ := runOn_wanting wants
    rw [ran, ran, again]

/-- A refused token is the next one, and of another kind than the call wants. The call faults at
it, and behind it is nothing but a look. -/
theorem refused {request : Request} {state : State} {token : Token}
    (refuses : request.refused? state = some token) :
    runOn Parse.current state = (.ok token, request.next state) ∧
      ∃ expected, (runOn request.run state).1 = .error (Fault.unexpected token expected) := by
  rcases wants : request.wanted? with _ | kind
  · exact absurd refuses (by simp [refused?, wants])
  · obtain ⟨expected, ran⟩ := runOn_wanting wants
    simp only [refused?, wants] at refuses
    simp only [next, ran]
    rcases shown : runOn Parse.current state with ⟨fault | found, after⟩
    · simp [shown] at refuses
    · simp only [shown] at refuses ⊢
      by_cases same : found.kind = kind
      · simp [same] at refuses
      · obtain rfl : found = token := by simpa [same] using refuses
        rw [if_neg same]
        exact ⟨rfl, expected, rfl⟩

end Request

/-! ## Sessions -/

section Sessions

variable {stream : List Item} {taken : List Token} {met : List Fault} {state : State}

/-- What was taken and what is kept is delivered first, in this order. -/
theorem State.Accounts.delivered (accounts : state.Accounts (given stream) taken met) :
    taken ++ state.lookahead =
      (delivered stream).take (taken.length + state.lookahead.length) := by
  obtain ⟨length, first⟩ := tokens_take (.ending (endOf stream)) stream state.pulled
  have whole : taken ++ state.lookahead = (Parse.delivered stream).take length :=
    accounts.tokens.symm.trans first
  have total := congrArg List.length whole
  rw [List.length_append, Stream'.length_take] at total
  rw [total]
  exact whole

/-- What was taken is delivered first. -/
theorem State.Accounts.taken_delivered (accounts : state.Accounts (given stream) taken met) :
    taken = (Parse.delivered stream).take taken.length := by
  have cut := congrArg (List.take taken.length) accounts.delivered
  rwa [List.take_left, Stream'.take_take, Nat.min_eq_right (Nat.le_add_right _ _)] at cut

/-- What was met are the faults among the first items of the stream. -/
theorem State.Accounts.met_eq (accounts : state.Accounts (given stream) taken met) :
    met = (stream.take state.pulled).filterMap faultOf :=
  accounts.faults.symm.trans (faults_take _ stream state.pulled)

/-- Every item that was asked for was taken, is kept or was met. -/
theorem State.Accounts.pulled_eq (accounts : state.Accounts (given stream) taken met) :
    taken.length + state.lookahead.length + met.length = state.pulled := by
  have total := length_tokens_add_faults ((given stream).take state.pulled)
  rwa [accounts.tokens, accounts.faults, Stream'.length_take, List.length_append] at total

/-- Where as many items were taken and met as the stream has, they are all of them. -/
theorem State.Accounts.all_of_le (accounts : state.Accounts (given stream) taken met)
    (enough : stream.length ≤ taken.length + met.length) :
    met = stream.filterMap faultOf ∧ stream.filterMap Except.toOption <+: taken := by
  have asked := accounts.pulled_eq
  have all : met = stream.filterMap faultOf := by
    rw [accounts.met_eq, List.take_of_length_le (by omega)]
  have sum := length_tokens_add_faults stream
  rw [← all] at sum
  obtain ⟨further, more⟩ : ∃ further,
      taken.length = (stream.filterMap Except.toOption).length + further :=
    Nat.exists_eq_add_of_le (by omega)
  refine ⟨all, ?_⟩
  rw [accounts.taken_delivered, more, Parse.delivered, followedBy, ← Stream'.append_take]
  exact List.prefix_append _ _

end Sessions

/-- Behind any calls on a fresh parse, the tokens that were consumed are the first ones that the
stream delivers, and those that were looked at are the next ones. The faults among the items that
were asked for are the results of one call each. As many calls to consume as there are items take
every token of the stream and meet every fault. A call that wants another token than the next one
consumes nothing, so that every call behind it gives what it would have given before it. -/
theorem session_delivers (stream : List Item) (tables : Tables) (requests : List Request) :
    let start := State.fresh stream tables
    let state := start.following requests
    let taken := start.taken requests
    let met := start.met requests
    taken = (delivered stream).take taken.length ∧
      taken ++ state.lookahead =
        (delivered stream).take (taken.length + state.lookahead.length) ∧
      met = (stream.take state.pulled).filterMap faultOf ∧
      taken.length + state.lookahead.length + met.length = state.pulled ∧
      (stream.length ≤ requests.count .advance →
        met = stream.filterMap faultOf ∧ stream.filterMap Except.toOption <+: taken) ∧
      ∀ (request : Request) (token : Token), request.refused? state = some token →
        (∃ expected, (runOn request.run state).1 = .error (Fault.unexpected token expected)) ∧
          (request.next state).view = state.view ∧
          (runOn advance (request.next state)).1 = .ok token ∧
          ∀ next : Request,
            (runOn next.run (request.next state)).1 = (runOn next.run state).1 := by
  intro start state taken met
  have accounts : state.Accounts (given stream) taken met :=
    (accounts_fresh stream tables).calls requests
  refine ⟨accounts.taken_delivered, accounts.delivered, accounts.met_eq, accounts.pulled_eq,
    fun enough => ?_, fun request token refuses => ?_⟩
  · exact accounts.all_of_le (Nat.le_trans enough (count_advance_le requests start))
  · obtain ⟨looked, fault⟩ := request.refused refuses
    have taken := (runOn_advance_behind looked).1
    exact ⟨fault, (view_peek looked).1, taken, fun next => next.result_behind looked⟩

/-- A look over a fault keeps the token before it, and a refused token is consumed by the next
call. -/
theorem session_delivers_over_fault :
    let fault : Fault := ⟨.unrecognisedCharacter '?', {}⟩
    let first : Token := ⟨.identifier, "x", {}⟩
    let last : Token := ⟨.number, "1", ⟨{}, ⟨3, 1, 4⟩⟩⟩
    let stream : List Item := [.ok first, .error fault, .ok last]
    let requests : List Request :=
      [.peek 2, .expect .number, .advance, .peek 1, .advance, .advance]
    let start := State.fresh stream {}
    start.taken requests = [first, last, .ending ⟨3, 1, 4⟩] ∧
      start.met requests = [fault] ∧
      (start.met requests = stream.filterMap faultOf ∧
        stream.filterMap Except.toOption <+: start.taken requests) ∧
      (runOn advance ((Request.expect .number).next start)).1 = .ok first := by
  intro fault first last stream requests start
  obtain ⟨_, _, _, _, all, _⟩ := session_delivers stream {} requests
  obtain ⟨_, _, _, _, _, refusal⟩ := session_delivers stream {} []
  have refused : (Request.expect .number).refused? start = some first := by decide
  refine ⟨by decide +kernel, by decide +kernel, all (by decide), ?_⟩
  exact (refusal _ _ refused).2.2.1

end StartEnd.Parse
