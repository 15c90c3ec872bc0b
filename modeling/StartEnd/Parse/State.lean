import StartEnd.Grammar.First
import StartEnd.Parse.Tables
import StartEnd.Token.Cursor

/-!
# The state of a parse

A parse consumes a stream of items, one token at a time, with as much lookahead as
is asked for. A token leaves the stream only when it is looked at, so a fault of the
stream is met exactly there. Behind the last item the stream goes on with
end-of-input tokens where the last token ended.

The state also counts the constructs that are open and logs every production that
has been recognized. It survives a fault: what was consumed, opened or logged before
the fault stays so.
-/

namespace StartEnd

/-- Everything a parse remembers. -/
structure Parse.State where
  /-- What has not been asked for yet. -/
  stream : List Item
  /-- Tokens that were looked at and not consumed. -/
  lookahead : List Token := []
  /-- Where the last token of the stream stood. -/
  lastSpan : Span := {}
  tables : Tables := {}
  /-- Recognized productions, the newest first. -/
  log : List Rule := []
  /-- Constructs that are open. -/
  depth : Nat := 0
  /-- How often the stream was asked for an item. -/
  pulled : Nat := 0
  /-- The most tokens that were kept in the lookahead at once. -/
  widest : Nat := 0

/-- The recognized productions in the order in which they were completed. -/
def Parse.State.reductions (state : Parse.State) : List Rule := state.log.reverse

/-- A parser: it changes the state and either gives a value or faults. -/
abbrev Parse := ExceptT Fault (StateM Parse.State)

namespace Parse

/-- What a parser gives on a state, and the state behind it. -/
def runOn {α : Type} (parser : Parse α) (state : State) : Except Fault α × State :=
  (ExceptT.run parser).run state

/-- A value is given without a change. -/
theorem runOn_pure {α : Type} (value : α) (state : State) :
    runOn (pure value) state = (.ok value, state) := rfl

/-- A fault leaves the state as it is. -/
theorem runOn_throw {α : Type} (fault : Fault) (state : State) :
    runOn (throw fault : Parse α) state = (.error fault, state) := rfl

/-- The state can be read. -/
theorem runOn_get (state : State) : runOn (get : Parse State) state = (.ok state, state) := rfl

/-- The state can be replaced. -/
theorem runOn_set (updated state : State) :
    runOn (set updated : Parse Unit) state = (.ok (), updated) := rfl

/-- The state can be changed by a function. -/
theorem runOn_modify (change : State → State) (state : State) :
    runOn (modify change : Parse Unit) state = (.ok (), change state) := rfl

/-- Parsers run one after another; a fault of the first keeps the second from running,
and the state in which it arose stays. -/
theorem runOn_bind {α β : Type} (first : Parse α) (second : α → Parse β) (state : State) :
    runOn (first >>= second) state =
      match runOn first state with
      | (.ok value, following) => runOn (second value) following
      | (.error fault, following) => (.error fault, following) := by
  simp only [runOn, ExceptT.run_bind, StateT.run_bind]
  show (match (ExceptT.run first).run state with | (_, _) => _) = _
  rcases (ExceptT.run first).run state with ⟨fault | value, following⟩ <;> rfl

/-- The number of constructs that may be open at once. -/
def depthLimit : Nat := 128

/-- Takes the next item from the stream. -/
def pull : Parse Token := do
  let state ← get
  match state.stream with
  | .ok token :: rest =>
    set { state with stream := rest, lastSpan := token.span, pulled := state.pulled + 1 }
    return token
  | .error fault :: rest =>
    set { state with stream := rest, pulled := state.pulled + 1 }
    throw fault
  | [] =>
    let token := Token.ending state.lastSpan.stop
    set { state with lastSpan := token.span, pulled := state.pulled + 1 }
    return token

/-- Takes the next item from the stream and keeps it for later. -/
def queue : Parse Token := do
  let token ← pull
  modify fun state =>
    let lookahead := state.lookahead ++ [token]
    { state with lookahead := lookahead, widest := max state.widest lookahead.length }
  return token

/-- Queues one token more than the given number and gives the last of them. -/
def queueMore : Nat → Parse Token
  | 0 => queue
  | count + 1 => do
    let _ ← queue
    queueMore count

/-- The token a given number of places ahead; nothing is consumed. -/
def peek (distance : Nat) : Parse Token := do
  let lookahead := (← get).lookahead
  match lookahead[distance]? with
  | some token => return token
  | none => queueMore (distance - lookahead.length)

/-- The token that is consumed next. -/
def current : Parse Token := peek 0

/-- The kind of the token that is consumed next. -/
def currentKind : Parse Token.Kind := do return (← current).kind

/-- Consumes a token. -/
def advance : Parse Token := do
  let state ← get
  match state.lookahead with
  | token :: rest =>
    set { state with lookahead := rest }
    return token
  | [] => pull

/-- Faults at the current token, naming the kinds that were wanted. -/
def unexpected {α : Type} (expected : List Token.Kind) : Parse α := do
  throw (Fault.unexpected (← current) expected)

/-- Consumes a token of the given kind. -/
def expect (kind : Token.Kind) : Parse Token := do
  if (← currentKind) = kind then advance else unexpected [kind]

/-- Consumes the token that closes a body. A body ends at the first token that begins
no statement, so anything else than the closing token could also have been one. -/
def expectBodyEnd (closing : Token.Kind) : Parse Token := do
  if (← currentKind) = closing then advance
  else unexpected (Token.Kind.sort (Nonterminal.concept.first ++ [closing]))

/-- Whether the current token begins a statement. -/
def startsStatement : Parse Bool := do
  let kind ← currentKind
  return ((← get).tables.statement kind).isSome

/-- Faults at the current token because too many constructs are open. -/
def tooDeep {α : Type} : Parse α := do
  throw ⟨.nestingTooDeep depthLimit.toUInt64, (← current).span.start⟩

/-- Opens a construct, unless as many are open as may be. -/
def enter : Parse Unit := do
  if depthLimit ≤ (← get).depth then tooDeep
  else modify fun state => { state with depth := state.depth + 1 }

/-- Closes a construct. -/
def leave : Parse Unit := modify fun state => { state with depth := state.depth - 1 }

/-- Logs a recognized production. -/
def reduce (rule : Rule) : Parse Unit :=
  modify fun state => { state with log := rule :: state.log }

/-- Logs a production several times. -/
def reduceTimes (rule : Rule) : Nat → Parse Unit
  | 0 => pure ()
  | count + 1 => do
    reduce rule
    reduceTimes rule count

/-- The number of items that are not consumed yet. -/
def pending : Parse Nat := do
  let state ← get
  return state.lookahead.length + state.stream.length

end Parse

end StartEnd
