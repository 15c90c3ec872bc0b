import StartEnd.Proofs.Parse.View
import StartEnd.Proofs.Replay.Machine

/-!
# Parsers whose log can be replayed

A parser replays when everything it does on a state is a run on a stack: the tokens that
it consumes are shifted, the productions that it logs are applied, and the value that it
gives is found in the entries on top of the stack. If it faults, there is a run for what
it did up to the fault. What lies below the given entries plays no part.

Replaying composes: a parser in a row begins with the entries that the one before it has
left. Each rule here takes one step of a parser. What is known about the items ahead is
carried along, because a parser looks at the next token before it consumes it.
-/

namespace StartEnd.Parse

open Replay

/-- Between two states the given tokens were consumed and the given productions were
logged, and then nothing is known about the items ahead. -/
structure State.Stops (before : State) (events : List Event) (after : State) : Prop where
  log : after.log = (Replay.reductions events).reverse ++ before.log
  shown : ∃ rest, before.view = (shifts events).map Except.ok ++ₛ rest
  consumed : before.Clean → after.consumed = before.consumed + (shifts events).length

/-- Between two states the given tokens were consumed and the given productions were
logged. -/
structure State.Plays (before : State) (events : List Event) (after : State) : Prop where
  ready : after.Ready
  log : after.log = (Replay.reductions events).reverse ++ before.log
  view : before.view = (shifts events).map Except.ok ++ₛ after.view
  consumed : before.Clean → after.consumed = before.consumed + (shifts events).length
  unread : after.unread + (shifts events).length = before.unread

/-- Nothing is known about the items ahead. -/
def Unknown (_ : Stream' Item) : Prop := True

/-- The next item is a token of the given kind. -/
def Shows (kind : Token.Kind) (view : Stream' Item) : Prop :=
  ∃ token, view.head = .ok token ∧ token.kind = kind

/-- What a parser does on a state with the given entries on top of the stack: a run that
leaves entries of the given shape, or a run up to a fault. -/
def Replays {α : Type} (steps : Nat) (fact : Stream' Item → Prop) (top : List Entry)
    (parser : Parse α) (shape : α → List Entry → Prop) (ahead : α → Stream' Item → Prop) :
    Prop :=
  ∀ (state : State) (below : List Entry), state.Ready → state.unread ≤ steps →
    fact state.view →
    match runOn parser state with
    | (.ok value, after) => ∃ events stack, Runs (below ++ top) events (below ++ stack) ∧
        state.Plays events after ∧ shape value stack ∧ ahead value after.view
    | (.error _, after) => ∃ events stack, Runs (below ++ top) events stack ∧
        state.Stops events after

namespace State

/-- Looking ahead is an empty run. -/
theorem Alike.plays {before after : State} (alike : before.Alike after) :
    before.Plays [] after :=
  ⟨alike.ready, alike.log, alike.view.symm, alike.consumed, alike.unread⟩

/-- A fault at once stops an empty run. -/
theorem Kept.stops {before after : State} (kept : before.Kept after) : before.Stops [] after :=
  ⟨kept.log, ⟨before.view, rfl⟩, kept.consumed⟩

/-- Consuming a token shifts it. -/
theorem Consumes.plays {before after : State} {token : Token}
    (consumes : before.Consumes token after) (visible : token.kind ≠ .endOfInput) :
    before.Plays [.shift token] after :=
  ⟨consumes.ready, consumes.log, consumes.view, consumes.consumed, consumes.unread visible⟩

/-- Behind a run there is no fault that was not there. -/
theorem Plays.clean {before after : State} {events : List Event}
    (plays : before.Plays events after) (clean : before.Clean) : after.Clean := by
  intro index
  have shown := clean (((shifts events).map (Except.ok : Token → Item)).length + index)
  rwa [plays.view, Stream'.get_append_right] at shown

/-- Runs in a row consume and log in a row. -/
theorem Plays.trans {first second third : State} {early late : List Event}
    (front : first.Plays early second) (back : second.Plays late third) :
    first.Plays (early ++ late) third where
  ready := back.ready
  log := by
    rw [back.log, front.log, reductions_append, List.reverse_append, List.append_assoc]
  view := by
    rw [front.view, back.view, shifts_append, List.map_append, Stream'.append_append_stream]
  consumed := fun clean => by
    rw [back.consumed (front.clean clean), front.consumed clean, shifts_append,
      List.length_append, Nat.add_assoc]
  unread := by
    have fewer := back.unread
    have few := front.unread
    rw [shifts_append, List.length_append]
    omega

/-- A run that stops behind another one stops both. -/
theorem Plays.trans_stops {first second third : State} {early late : List Event}
    (front : first.Plays early second) (back : second.Stops late third) :
    first.Stops (early ++ late) third where
  log := by
    rw [back.log, front.log, reductions_append, List.reverse_append, List.append_assoc]
  shown := by
    obtain ⟨rest, shown⟩ := back.shown
    refine ⟨rest, ?_⟩
    rw [front.view, shown, shifts_append, List.map_append, Stream'.append_append_stream]
  consumed := fun clean => by
    rw [back.consumed (front.clean clean), front.consumed clean, shifts_append,
      List.length_append, Nat.add_assoc]

/-- A state in which nothing but endings is ahead shows one. -/
theorem shows_of_unread {state : State} (unread : state.unread = 0) :
    Shows .endOfInput state.view := by
  rcases found : state.upcoming with _ | ⟨item, rest⟩
  · exact ⟨state.ending, view_get_of_le (by simp [found]), rfl⟩
  · have seen : ∀ item ∈ state.upcoming, item.toOption.all (·.kind ≠ .endOfInput) = false := by
      simpa [State.unread, List.countP_eq_zero] using unread
    have isEnding := seen item (by simp [found])
    rcases item with fault | token
    · simp [Except.toOption] at isEnding
    · refine ⟨token, ?_, by simpa [Except.toOption] using isEnding⟩
      simp [view, found, Stream'.cons_append_stream]

end State

namespace Replays

variable {α β : Type} {steps : Nat} {fact : Stream' Item → Prop} {top : List Entry}
  {shape : α → List Entry → Prop} {ahead : α → Stream' Item → Prop} {parser : Parse α}

/-- A value is given without a step. -/
theorem pure {value : α} (shaped : shape value top)
    (known : ∀ view, fact view → ahead value view) :
    Replays steps fact top (Pure.pure value : Parse α) shape ahead := by
  intro state below ready _ holds
  exact ⟨[], top, .done _, (State.Alike.refl ready).plays, shaped, known _ holds⟩

/-- Parsers in a row make runs in a row. -/
theorem bind {middle : β → List Entry → Prop} {known : β → Stream' Item → Prop}
    {first : Parse β} {second : β → Parse α}
    (front : Replays steps fact top first middle known)
    (back : ∀ value stack, middle value stack →
      Replays steps (known value) stack (second value) shape ahead) :
    Replays steps fact top (first >>= second) shape ahead := by
  intro state below ready few holds
  have early := front state below ready few holds
  rw [runOn_bind]
  generalize runOn first state = outcome at early ⊢
  rcases outcome with ⟨fault | value, after⟩
  · exact early
  · obtain ⟨events, stack, runs, plays, shaped, seen⟩ := early
    have fewer : after.unread ≤ steps := by
      have counted := plays.unread
      omega
    have late := back value stack shaped after below plays.ready fewer seen
    simp only
    generalize runOn (second value) after = outcome at late ⊢
    rcases outcome with ⟨fault | result, last⟩
    · obtain ⟨further, final, more, stops⟩ := late
      exact ⟨events ++ further, final, runs.append more, plays.trans_stops stops⟩
    · obtain ⟨further, final, more, again, result⟩ := late
      exact ⟨events ++ further, final, runs.append more, plays.trans again, result⟩

/-- What a parser does above an empty stack it does above any entries. -/
theorem frame (replays : Replays steps fact [] parser shape ahead) (base : List Entry) :
    Replays steps fact base parser
      (fun value stack => ∃ pushed, stack = base ++ pushed ∧ shape value pushed) ahead := by
  intro state below ready few holds
  have inner := replays state (below ++ base) ready few holds
  rw [List.append_nil] at inner
  generalize runOn parser state = outcome at inner ⊢
  rcases outcome with ⟨fault | value, after⟩
  · exact inner
  · obtain ⟨events, stack, runs, plays, shaped, seen⟩ := inner
    rw [List.append_assoc] at runs
    exact ⟨events, base ++ stack, runs, plays, ⟨stack, rfl, shaped⟩, seen⟩

/-- A parser that begins with nothing puts its entries on top of those that are there. -/
theorem call {middle : β → List Entry → Prop} {known : β → Stream' Item → Prop}
    {first : Parse β} {second : β → Parse α} (front : Replays steps fact [] first middle known)
    (back : ∀ value pushed, middle value pushed →
      Replays steps (known value) (top ++ pushed) (second value) shape ahead) :
    Replays steps fact top (first >>= second) shape ahead := by
  apply (front.frame top).bind
  rintro value stack ⟨pushed, rfl, shaped⟩
  exact back value pushed shaped

/-- What holds with less known or with more items ahead holds with more known and with
fewer items. -/
theorem weaken {weaker : Stream' Item → Prop} {more : Nat}
    (replays : Replays more weaker top parser shape ahead) (fewer : steps ≤ more)
    (known : ∀ view, fact view → weaker view) :
    Replays steps fact top parser shape ahead := by
  intro state below ready few holds
  exact replays state below ready (Nat.le_trans few fewer) (known _ holds)

/-- What the items ahead tell can be used before they are looked at again. -/
theorem given {claim : Prop} (tells : ∀ view, fact view → claim)
    (replays : claim → Replays steps fact top parser shape ahead) :
    Replays steps fact top parser shape ahead := by
  intro state below ready few holds
  exact replays (tells _ holds) state below ready few holds

/-- Where no items are left, an ending is next. -/
theorem ended (replays : Replays 0 (Shows .endOfInput) top parser shape ahead) :
    Replays 0 fact top parser shape ahead := by
  intro state below ready few _
  exact replays state below ready few (State.shows_of_unread (Nat.le_zero.mp few))

/-- The entries that a parser leaves can be described in another way. -/
theorem reshape {wider : α → List Entry → Prop}
    (replays : Replays steps fact top parser shape ahead)
    (holds : ∀ value stack, shape value stack → wider value stack) :
    Replays steps fact top parser wider ahead := by
  intro state below ready few known
  have inner := replays state below ready few known
  generalize runOn parser state = outcome at inner ⊢
  rcases outcome with ⟨fault | value, after⟩
  · exact inner
  · obtain ⟨events, stack, runs, plays, shaped, seen⟩ := inner
    exact ⟨events, stack, runs, plays, holds value stack shaped, seen⟩

/-- Nothing has to be known about the items ahead. -/
theorem known (replays : Replays steps Unknown top parser shape ahead) :
    Replays steps fact top parser shape ahead :=
  replays.weaken (Nat.le_refl _) fun _ _ => trivial

/-- The tables of a state are the standard ones. -/
theorem tables {second : State → Parse α}
    (rest : ∀ state : State, state.tables = .standard →
      Replays steps fact top (second state) shape ahead) :
    Replays steps fact top (get >>= second) shape ahead := by
  intro state below ready few holds
  exact rest state ready.standard state below ready few holds

/-- A fault without a look stops the run. -/
theorem throw {fault : Fault} :
    Replays steps fact top (MonadExcept.throw fault : Parse α) shape ahead := by
  intro state below ready _ _
  exact ⟨[], below ++ top, .done _, (State.Alike.refl ready).toKept.stops⟩

/-- Looking further ahead changes nothing, and a fault on the way stops the run. -/
theorem peek (distance : Nat) {second : Token → Parse α}
    (rest : ∀ token, Replays steps
      (fun view => fact view ∧ view.get distance = .ok token) top (second token) shape ahead) :
    Replays steps fact top (Parse.peek distance >>= second) shape ahead := by
  have looked : Replays steps fact top (Parse.peek distance) (fun _ stack => stack = top)
      (fun token view => fact view ∧ view.get distance = .ok token) := by
    intro state below ready _ holds
    rcases peek_outcome distance ready with
      ⟨token, after, ran, shown, alike⟩ | ⟨fault, after, index, ran, _, _, kept⟩
    · rw [ran]
      refine ⟨[], top, .done _, alike.plays, rfl, ?_⟩
      rw [alike.view]
      exact ⟨holds, shown⟩
    · rw [ran]
      exact ⟨[], _, .done _, kept.stops⟩
  apply looked.bind
  rintro token stack rfl
  exact rest token

/-- Looking at the kind of the next token shows it. -/
theorem currentKind {second : Token.Kind → Parse α}
    (rest : ∀ kind, Replays steps (fun view => fact view ∧ Shows kind view) top (second kind)
      shape ahead) :
    Replays steps fact top (Parse.currentKind >>= second) shape ahead := by
  unfold Parse.currentKind current
  rw [bind_assoc]
  apply peek 0
  intro token
  rw [pure_bind]
  apply (rest token.kind).weaken (Nat.le_refl _)
  rintro view ⟨holds, shown⟩
  exact ⟨holds, token, shown, rfl⟩

/-- A fault at the next token stops the run. -/
theorem unexpected {expected : List Token.Kind} :
    Replays steps fact top (Parse.unexpected expected : Parse α) shape ahead :=
  peek 0 fun _ => throw

/-- Nothing comes behind a fault at the next token. -/
theorem unexpected_bind {expected : List Token.Kind} {second : β → Parse α} :
    Replays steps fact top (Parse.unexpected expected >>= second) shape ahead := by
  have stopped : Replays steps fact top (Parse.unexpected expected : Parse β)
      (fun _ _ => False) (fun _ => Unknown) := unexpected
  exact stopped.bind fun _ _ impossible => impossible.elim

/-- Too many open constructs stop the run. -/
theorem tooDeep : Replays steps fact top (Parse.tooDeep : Parse α) shape ahead :=
  peek 0 fun _ => throw

/-- Consuming a token that is not an ending shifts it and leaves fewer items ahead. -/
theorem advanceFewer {kind : Token.Kind} {second : Token → Parse α}
    (shown : ∀ view, fact view → Shows kind view) (visible : kind ≠ .endOfInput)
    (rest : ∀ token, token.kind = kind →
      Replays steps Unknown (top ++ [.terminal token]) (second token) shape ahead) :
    Replays (steps + 1) fact top (Parse.advance >>= second) shape ahead := by
  intro state below ready few holds
  obtain ⟨token, isNext, same⟩ := shown _ holds
  rcases advance_outcome ready with ⟨next, after, ran, consumes⟩ | ⟨fault, after, _, bad, _⟩
  · have heads : state.view.head = .ok next := by
      rw [consumes.view]
      rfl
    obtain rfl : token = next := Except.ok.inj (isNext.symm.trans heads)
    have seen : token.kind ≠ .endOfInput := same ▸ visible
    have fewer : after.unread ≤ steps := by
      have counted := consumes.unread seen
      omega
    have late := rest token same after below consumes.ready fewer trivial
    have shifted : Runs (below ++ top) [.shift token] (below ++ (top ++ [.terminal token])) := by
      rw [← List.append_assoc]
      exact .single (.shift _ token seen)
    rw [runOn_bind, ran]
    simp only
    generalize runOn (second token) after = outcome at late ⊢
    rcases outcome with ⟨fault | value, last⟩
    · obtain ⟨events, stack, runs, stops⟩ := late
      exact ⟨_, stack, shifted.append runs, (consumes.plays seen).trans_stops stops⟩
    · obtain ⟨events, stack, runs, plays, result⟩ := late
      exact ⟨_, stack, shifted.append runs, (consumes.plays seen).trans plays, result⟩
  · rw [isNext] at bad
    exact absurd bad (by simp)

/-- Consuming a token that is not an ending shifts it. -/
theorem advance {kind : Token.Kind} {second : Token → Parse α}
    (shown : ∀ view, fact view → Shows kind view) (visible : kind ≠ .endOfInput)
    (rest : ∀ token, token.kind = kind →
      Replays steps Unknown (top ++ [.terminal token]) (second token) shape ahead) :
    Replays steps fact top (Parse.advance >>= second) shape ahead :=
  (advanceFewer shown visible rest).weaken (Nat.le_succ steps) fun _ holds => holds

/-- A wanted token is shifted and leaves fewer items ahead. -/
theorem expectFewer {kind : Token.Kind} {second : Token → Parse α} (visible : kind ≠ .endOfInput)
    (rest : ∀ token, token.kind = kind →
      Replays steps Unknown (top ++ [.terminal token]) (second token) shape ahead) :
    Replays (steps + 1) fact top (Parse.expect kind >>= second) shape ahead := by
  unfold Parse.expect
  rw [bind_assoc]
  apply currentKind
  intro found
  by_cases same : found = kind
  · rw [if_pos same]
    subst same
    exact advanceFewer (fun _ holds => holds.2) visible rest
  · rw [if_neg same]
    exact unexpected_bind

/-- A wanted token is shifted. -/
theorem expect {kind : Token.Kind} {second : Token → Parse α} (visible : kind ≠ .endOfInput)
    (rest : ∀ token, token.kind = kind →
      Replays steps Unknown (top ++ [.terminal token]) (second token) shape ahead) :
    Replays steps fact top (Parse.expect kind >>= second) shape ahead :=
  (expectFewer visible rest).weaken (Nat.le_succ steps) fun _ holds => holds

/-- A token that closes a body is shifted. -/
theorem expectBodyEnd {kind : Token.Kind} {second : Token → Parse α}
    (visible : kind ≠ .endOfInput)
    (rest : ∀ token, token.kind = kind →
      Replays steps Unknown (top ++ [.terminal token]) (second token) shape ahead) :
    Replays steps fact top (Parse.expectBodyEnd kind >>= second) shape ahead := by
  unfold Parse.expectBodyEnd
  rw [bind_assoc]
  apply currentKind
  intro found
  by_cases same : found = kind
  · rw [if_pos same]
    subst same
    exact advance (fun _ holds => holds.2) visible rest
  · rw [if_neg same]
    exact unexpected_bind

/-- A logged production takes its body off the top of the stack. -/
theorem reduce {rule : Rule} (base entries : List Entry) {made : rule.production.head.Node}
    {second : Unit → Parse α} (fits : entries.map Entry.symbol = handle rule)
    (built : node rule entries = some made)
    (rest : Replays steps fact (base ++ [.phrase rule.production.head made]) (second ()) shape
      ahead) :
    Replays steps fact (base ++ entries) (Parse.reduce rule >>= second) shape ahead := by
  have logged : Replays steps fact (base ++ entries) (Parse.reduce rule)
      (fun _ stack => stack = base ++ [.phrase rule.production.head made]) (fun _ => fact) := by
    intro state below ready _ holds
    refine ⟨[.reduce rule], _, ?_, ⟨⟨ready.standard, ready.counted⟩, rfl, rfl, fun _ => rfl,
      rfl⟩, rfl, holds⟩
    rw [← List.append_assoc, ← List.append_assoc]
    exact .single (.reduce _ entries rule made fits built)
  apply logged.bind
  rintro _ stack rfl
  exact rest

/-- A logged production takes all entries that there are. -/
theorem reduceAll {rule : Rule} {made : rule.production.head.Node} {second : Unit → Parse α}
    (fits : top.map Entry.symbol = handle rule) (built : node rule top = some made)
    (rest : Replays steps fact [.phrase rule.production.head made] (second ()) shape ahead) :
    Replays steps fact top (Parse.reduce rule >>= second) shape ahead :=
  reduce [] top fits built rest

/-- The braces around the body of an `if` are dropped before the parser goes on. -/
theorem unbrace {guard : List Entry} {opening closing : Token} {body : Block}
    (guarded : guard.map Entry.symbol = Replay.condition) (opens : opening.kind = .openCurly)
    (closes : closing.kind = .closeCurly)
    (rest : Replays steps fact (guard ++ [.phrase .body body]) parser shape ahead) :
    Replays steps fact (guard ++ [.terminal opening, .phrase .body body, .terminal closing])
      parser shape ahead := by
  intro state below ready few holds
  have late := rest state below ready few holds
  have dropped := Steps.unbrace below guard opening closing body guarded opens closes
  rw [List.append_assoc, List.append_assoc] at dropped
  generalize runOn parser state = outcome at late ⊢
  rcases outcome with ⟨fault | value, last⟩
  · obtain ⟨events, stack, runs, stops⟩ := late
    exact ⟨.unbrace :: events, stack, .next dropped runs, stops.log, stops.shown, stops.consumed⟩
  · obtain ⟨events, stack, runs, plays, result⟩ := late
    exact ⟨.unbrace :: events, stack, .next dropped runs,
      ⟨plays.ready, plays.log, plays.view, plays.consumed, plays.unread⟩, result⟩

/-- A construct does what its content does. -/
theorem construct (replays : Replays steps fact top parser shape ahead) :
    Replays steps fact top (do enter; let value ← parser; leave; Pure.pure value) shape
      ahead := by
  have entered : Replays steps fact top enter (fun _ stack => stack = top) (fun _ => fact) := by
    unfold enter
    apply tables
    intro state _
    split
    · exact tooDeep
    · intro state below ready _ holds
      exact ⟨[], top, .done _, ⟨⟨ready.standard, ready.counted⟩, rfl, rfl, fun _ => rfl, rfl⟩,
        rfl, holds⟩
  apply entered.bind
  rintro _ stack rfl
  apply replays.bind
  intro value stack shaped state below ready _ holds
  exact ⟨[], stack, .done _, ⟨⟨ready.standard, ready.counted⟩, rfl, rfl, fun _ => rfl, rfl⟩,
    shaped, holds⟩

end Replays

end StartEnd.Parse
