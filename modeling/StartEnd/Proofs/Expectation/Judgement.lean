import StartEnd.Proofs.Grammar.Phrase
import StartEnd.Proofs.Reading.Judgement

/-!
# Parsers that fault at the first hopeless token

A parser expects phrases when it consumes one, or faults at a token and names kinds that
would have continued what it consumed to a phrase. What it does depends on the tokens up to
the one at which it stops, and of that one only on the kind. Two runs that differ in the
last token alone are told apart by the kinds that were asked for there: those that the
parser itself looks for, and those that a parser before it has looked for in vain. A fault
names all of these, but for some that a fault never names.

The second run is made by a twin of the parser, which may go through more rounds of its
loops. Each rule here takes one step of a parser and of its twin.
-/

namespace StartEnd.Parse

open Replay (derives_terminal)

namespace State

/-- A state before some tokens, of which at most the first was looked at. -/
structure Stands (state : State) (tokens : Stream' Token) : Prop where
  ready : state.Ready
  faces : state.Faces tokens
  looked : state.lookahead.length ≤ 1

/-- Between two states the given tokens were consumed, none of them an ending. -/
structure Moves (before : State) (front : List Token) (rest : Stream' Token) (after : State) :
    Prop where
  stands : after.Stands rest
  depth : after.depth = before.depth
  consumed : after.consumed = before.consumed + front.length
  unread : after.unread + front.length = before.unread

/-- Moves in a row consume tokens in a row. -/
theorem Moves.trans {first second third : State} {early late : List Token}
    {middle rest : Stream' Token} (front : first.Moves early middle second)
    (back : second.Moves late rest third) : first.Moves (early ++ late) rest third where
  stands := back.stands
  depth := back.depth.trans front.depth
  consumed := by
    rw [back.consumed, front.consumed, List.length_append, Nat.add_assoc]
  unread := by
    rw [← front.unread, ← back.unread, List.length_append]
    omega

/-- A state with nothing but tokens ahead is free of faults. -/
theorem Faces.clean {state : State} {tokens : Stream' Token} (faces : state.Faces tokens) :
    state.Clean :=
  fun index => ⟨tokens.get index, faces.get index⟩

end State

/-- Queueing keeps every token. -/
theorem length_queueMore (count : Nat) {state after : State} {token : Token} (ready : state.Ready)
    (ran : runOn (queueMore count) state = (.ok token, after)) :
    after.lookahead.length = state.lookahead.length + (count + 1) := by
  induction count generalizing state with
  | zero =>
    rcases queue_outcome ready with ⟨next, queued, _⟩ | ⟨fault, last, faulted, _⟩
    · obtain ⟨_, rfl⟩ := Prod.mk.inj (queued.symm.trans ran)
      simp [State.queued]
    · exact absurd (congrArg Prod.fst (faulted.symm.trans ran)) (by simp)
  | succ count inductionHypothesis =>
    rcases queue_outcome ready with ⟨next, queued, shown⟩ | ⟨fault, last, faulted, _⟩
    · simp only [queueMore, runOn_bind, queued] at ran
      rw [inductionHypothesis (State.alike_queued ready shown).ready ran]
      simp [State.queued]
      omega
    · simp only [queueMore, runOn_bind, faulted] at ran
      exact absurd (congrArg Prod.fst ran) (by simp)

/-- Looking ahead keeps the tokens up to the one that is looked at. -/
theorem length_peek (distance : Nat) {state after : State} {token : Token} (ready : state.Ready)
    (ran : runOn (peek distance) state = (.ok token, after)) :
    after.lookahead.length = max state.lookahead.length (distance + 1) := by
  simp only [peek, runOn_bind, runOn_get] at ran
  rcases looked : state.lookahead[distance]? with _ | found
  · have behind : state.lookahead.length ≤ distance := List.getElem?_eq_none_iff.mp looked
    rw [looked] at ran
    rw [length_queueMore _ ready ran]
    omega
  · obtain ⟨inside, _⟩ := List.getElem?_eq_some_iff.mp looked
    rw [looked] at ran
    obtain ⟨_, rfl⟩ := Prod.mk.inj ran
    omega

/-- Consuming drops a token that was looked at. -/
theorem length_advance {state after : State} {token : Token} (ready : state.Ready)
    (ran : runOn advance state = (.ok token, after)) :
    after.lookahead.length = state.lookahead.length - 1 := by
  simp only [advance, runOn_bind, runOn_get] at ran
  rcases looked : state.lookahead with _ | ⟨next, rest⟩
  · rw [looked] at ran
    rcases pull_outcome ready with ⟨next, pulled, _⟩ | ⟨fault, last, faulted, _⟩
    · obtain ⟨_, rfl⟩ := Prod.mk.inj (pulled.symm.trans ran)
      simp [looked]
    · exact absurd (congrArg Prod.fst (faulted.symm.trans ran)) (by simp)
  · rw [looked] at ran
    obtain ⟨_, rfl⟩ := Prod.mk.inj ran
    simp

/-- The next token is looked at and stays ahead. -/
theorem current_moves {state : State} {tokens : Stream' Token} (stands : state.Stands tokens) :
    ∃ after, runOn current state = (.ok tokens.head, after) ∧ state.Moves [] tokens after ∧
      after.pulled = state.consumed + 1 := by
  obtain ⟨after, ran, alike, faces⟩ := peek_faces 0 stands.ready stands.faces
  have length : after.lookahead.length = 1 := by
    have bound := stands.looked
    rw [length_peek 0 stands.ready ran]
    omega
  have consumed : after.consumed = state.consumed := alike.consumed stands.faces.clean
  refine ⟨after, ran, ⟨⟨alike.ready, faces, by omega⟩, alike.depth, consumed, alike.unread⟩, ?_⟩
  have counted := alike.ready.counted
  unfold State.consumed at consumed ⊢
  omega

/-- The kind of the next token is looked at before anything else happens. -/
theorem currentKind_moves {α : Type} {second : Token.Kind → Parse α} {state : State}
    {tokens : Stream' Token} (stands : state.Stands tokens) :
    ∃ after, state.Moves [] tokens after ∧
      runOn (currentKind >>= second) state = runOn (second tokens.head.kind) after := by
  obtain ⟨after, ran, moves, _⟩ := current_moves stands
  exact ⟨after, moves, by simp only [currentKind, runOn_bind, ran, runOn_pure]⟩

/-- A fault at the next token is met with this token looked at. -/
theorem unexpected_faults {α : Type} {expected : List Token.Kind} {state : State}
    {tokens : Stream' Token} (stands : state.Stands tokens) :
    ∃ after, runOn (unexpected expected : Parse α) state =
      (.error (Fault.unexpected tokens.head expected), after) ∧
      after.pulled = state.consumed + 1 := by
  obtain ⟨after, ran, _, pulled⟩ := current_moves stands
  exact ⟨after, by simp only [unexpected, runOn_bind, ran, runOn_throw], pulled⟩

/-- The next token is consumed. -/
theorem advance_moves {state : State} {tokens : Stream' Token} (stands : state.Stands tokens)
    (visible : tokens.head.kind ≠ .endOfInput) :
    ∃ after, runOn advance state = (.ok tokens.head, after) ∧
      state.Moves [tokens.head] tokens.tail after := by
  obtain ⟨after, ran, consumes, faces⟩ := advance_faces stands.ready stands.faces
  have bound : after.lookahead.length ≤ 1 := by
    have bound := stands.looked
    rw [length_advance stands.ready ran]
    omega
  exact ⟨after, ran, ⟨consumes.ready, faces, bound⟩, consumes.depth,
    consumes.consumed stands.faces.clean, consumes.unread visible⟩

/-- A token has the kind of another one, or none of the given kinds. -/
def Resembles (kinds : List Token.Kind) (token other : Token) : Prop :=
  other.kind = token.kind ∨ other.kind ∉ kinds

/-- What is alike for more kinds is alike for fewer. -/
theorem Resembles.mono {fewer more : List Token.Kind} {token other : Token}
    (included : fewer ⊆ more) (resembles : Resembles more token other) :
    Resembles fewer token other :=
  resembles.imp id fun absent inside => absent (included inside)

/-- Behind the same tokens, the first token is the same unless there were none. -/
theorem Resembles.ahead {fewer more : List Token.Kind} {front : List Token}
    {rest others : Stream' Token} (included : front = [] → fewer ⊆ more)
    (resembles : Resembles more rest.head others.head) :
    Resembles fewer (front ++ₛ rest).head (front ++ₛ others).head := by
  rcases front with _ | ⟨first, front⟩
  · exact resembles.mono (included rfl)
  · exact .inl rfl

/-- Only one kind resembles another one if all kinds were asked for. -/
theorem Resembles.same {token other : Token} (resembles : Resembles Token.Kind.all token other) :
    other.kind = token.kind :=
  resembles.resolve_right fun absent => absent (Token.Kind.mem_all _)

/-- The kinds at the end of a body: those that begin a statement, and the closing one. -/
def bodyEnd (closing : Token.Kind) : List Token.Kind :=
  Token.Kind.sort (Nonterminal.concept.first ++ [closing])

/-- The kinds that a fault does not name although they may go on with what is complete: an
operator goes on with an expression, a comma with a list of parameters and `else` with an
`if`. Nor does a fault name the brace that may open the body of an `if`. -/
def omitted (expected : List Token.Kind) : List Token.Kind :=
  if expected = [.closeParen] then .comma :: operatorKinds
  else if expected = [.semicolon] ∨ expected = Nonterminal.op.first then operatorKinds
  else if expected = Nonterminal.concept.first then [.openCurly]
  else if expected ∈ [bodyEnd .endWord, bodyEnd .closeCurly, bodyEnd .retWord] then
    .elseWord :: operatorKinds
  else []

/-- The kinds that were asked for before a fault. -/
def wanted (expected : List Token.Kind) : List Token.Kind := expected ++ omitted expected

/-- Kinds are listed in their order, and each of them would have continued the tokens to a
phrase. -/
structure Awaited (phrase : List Token → Prop) (front : List Token)
    (expected : List Token.Kind) : Prop where
  present : expected ≠ []
  increasing : expected.Pairwise fun left right => left.rank < right.rank
  continues : ∀ kind ∈ expected, ∃ token more, token.kind = kind ∧ phrase (front ++ token :: more)

variable {α β : Type}

/-- What a parser and its twin do on states before some tokens. The parser consumes a
phrase, and so does its twin before every token that resembles the one behind the phrase.
Or the parser faults at a token, and so does its twin at every token that resembles it. -/
def Outcome (asked : List Token.Kind) (twin : Parse α) (phrase : List Token → Prop)
    (left : List Token.Kind) (before : State) (tokens : Stream' Token) :
    Except Fault α × State → Prop
  | (.ok value, after) => ∃ front rest, tokens = front ++ₛ rest ∧ before.Moves front rest after ∧
      phrase front ∧ (front = [] → asked ⊆ left) ∧
      ∀ (other : State) (others : Stream' Token), other.Stands (front ++ₛ others) →
        other.depth = before.depth → Resembles left rest.head others.head →
        ∃ last, runOn twin other = (.ok value, last) ∧ other.Moves front others last
  | (.error fault, after) => (∃ position, fault = ⟨.nestingTooDeep depthLimit.toUInt64, position⟩) ∨
      ∃ front rest expected, tokens = front ++ₛ rest ∧
        fault = Fault.unexpected rest.head expected ∧
        after.pulled = before.consumed + front.length + 1 ∧ Awaited phrase front expected ∧
        (front = [] → asked ⊆ wanted expected) ∧
        ∀ (other : State) (others : Stream' Token), other.Stands (front ++ₛ others) →
          other.depth = before.depth → Resembles (wanted expected) rest.head others.head →
          ∃ last, runOn twin other = (.error (Fault.unexpected others.head expected), last)

/-- A parser and its twin expect phrases of the given form. The kinds that were asked for
before are given, and those that may have been asked for behind a phrase are left. -/
def Expects (steps : Nat) (fact : Token.Kind → Prop) (asked : List Token.Kind)
    (parser twin : Parse α) (phrase : List Token → Prop) (left : List Token.Kind) : Prop :=
  ∀ (state : State) (tokens : Stream' Token), state.Stands tokens → state.unread ≤ steps →
    fact tokens.head.kind → Outcome asked twin phrase left state tokens (runOn parser state)

/-- Nothing is known about a kind. -/
def AnyKind (_ : Token.Kind) : Prop := True

/-- What happens behind some tokens that were consumed happens behind them. -/
theorem Outcome.prepend {before between : State} {early : List Token} {middle : Stream' Token}
    {asked inner left : List Token.Kind} {twin next : Parse α} {phrase : List Token → Prop}
    {result : Except Fault α × State} (moves : before.Moves early middle between)
    (follows : ∀ (other : State) (others : Stream' Token), other.Stands (early ++ₛ others) →
      other.depth = before.depth → Resembles inner middle.head others.head →
      ∃ last, other.Moves early others last ∧ runOn twin other = runOn next last)
    (wider : early = [] → asked ⊆ inner)
    (outcome : Outcome inner next (fun back => phrase (early ++ back)) left between middle result) :
    Outcome asked twin phrase left before (early ++ₛ middle) result := by
  -- The twin reaches the same point: the token there is consumed by both, or it resembles.
  have reached : ∀ (front : List Token) (rest others : Stream' Token) (other : State)
      (more : List Token.Kind), (front = [] → inner ⊆ more) → middle = front ++ₛ rest →
      other.Stands ((early ++ front) ++ₛ others) → other.depth = before.depth →
      Resembles more rest.head others.head →
      ∃ last, other.Moves early (front ++ₛ others) last ∧ runOn twin other = runOn next last := by
    intro front rest others other more included split stands depth resembles
    rw [Stream'.append_append_stream] at stands
    refine follows other _ stands depth ?_
    rw [split]
    exact resembles.ahead included
  rcases result with ⟨fault | value, after⟩
  · rcases outcome with tooDeep | ⟨front, rest, expected, split, same, pulled, awaited, included,
      repeats⟩
    · exact .inl tooDeep
    · refine .inr ⟨early ++ front, rest, expected, ?_, same, ?_, ?_, ?_, ?_⟩
      · rw [split, Stream'.append_append_stream]
      · rw [pulled, moves.consumed, List.length_append]
        omega
      · refine ⟨awaited.present, awaited.increasing, fun kind inside => ?_⟩
        obtain ⟨token, more, isKind, holds⟩ := awaited.continues kind inside
        exact ⟨token, more, isKind, by simpa using holds⟩
      · intro empty
        obtain ⟨noFirst, noSecond⟩ := List.append_eq_nil_iff.mp empty
        exact List.Subset.trans (wider noFirst) (included noSecond)
      · intro other others stands depth resembles
        obtain ⟨last, moved, ran⟩ :=
          reached front rest others other _ included split stands depth resembles
        rw [ran]
        exact repeats last others moved.stands (moved.depth.trans (depth.trans moves.depth.symm))
          resembles
  · obtain ⟨front, rest, split, moved, holds, included, repeats⟩ := outcome
    refine ⟨early ++ front, rest, ?_, moves.trans moved, holds, ?_, ?_⟩
    · rw [split, Stream'.append_append_stream]
    · intro empty
      obtain ⟨noFirst, noSecond⟩ := List.append_eq_nil_iff.mp empty
      exact List.Subset.trans (wider noFirst) (included noSecond)
    · intro other others stands depth resembles
      obtain ⟨middle, reaches, ran⟩ :=
        reached front rest others other _ included split stands depth resembles
      obtain ⟨last, ends, further⟩ := repeats middle others reaches.stands
        (reaches.depth.trans (depth.trans moves.depth.symm)) resembles
      exact ⟨last, ran.trans ends, reaches.trans further⟩

/-- What happens behind a step that consumes nothing happens before it. -/
theorem Outcome.quiet {before between : State} {tokens : Stream' Token}
    {asked inner left : List Token.Kind} {twin next : Parse α} {phrase : List Token → Prop}
    {result : Except Fault α × State} (moves : before.Moves [] tokens between)
    (follows : ∀ (other : State) (others : Stream' Token), other.Stands others →
      Resembles inner tokens.head others.head →
      ∃ last, other.Moves [] others last ∧ runOn twin other = runOn next last)
    (wider : asked ⊆ inner) (outcome : Outcome inner next phrase left between tokens result) :
    Outcome asked twin phrase left before tokens result :=
  Outcome.prepend moves (fun other others stands _ => follows other others stands)
    (fun _ => wider) outcome

/-- An outcome with a narrower phrase, fewer kinds left or more kinds asked for is one. -/
theorem Outcome.mono {before : State} {tokens : Stream' Token}
    {asked more left wider : List Token.Kind} {twin : Parse α} {phrase narrower : List Token → Prop}
    {result : Except Fault α × State} (fewer : asked ⊆ more) (widens : left ⊆ wider)
    (holds : ∀ tokens, narrower tokens → phrase tokens)
    (outcome : Outcome more twin narrower left before tokens result) :
    Outcome asked twin phrase wider before tokens result := by
  rcases result with ⟨fault | value, after⟩
  · rcases outcome with tooDeep | ⟨front, rest, expected, split, same, pulled, awaited, included,
      repeats⟩
    · exact .inl tooDeep
    · refine .inr ⟨front, rest, expected, split, same, pulled, ?_, ?_, repeats⟩
      · refine ⟨awaited.present, awaited.increasing, fun kind inside => ?_⟩
        obtain ⟨token, more, isKind, continues⟩ := awaited.continues kind inside
        exact ⟨token, more, isKind, holds _ continues⟩
      · exact fun empty => List.Subset.trans fewer (included empty)
  · obtain ⟨front, rest, split, moved, isPhrase, included, repeats⟩ := outcome
    refine ⟨front, rest, split, moved, holds front isPhrase, ?_, ?_⟩
    · exact fun empty => List.Subset.trans fewer (List.Subset.trans (included empty) widens)
    · intro other others stands depth resembles
      exact repeats other others stands depth (resembles.mono widens)

/-- Two parsers do the same in every state of a parse of the language. -/
def Same (first second : Parse α) : Prop :=
  ∀ state : State, state.Ready → runOn first state = runOn second state

/-- The tables of a parse of the language are the standard ones. -/
theorem same_tables {second : State → Parse α} {parser : Parse α}
    (standard : ∀ state : State, state.tables = .standard → second state = parser) :
    Same (get >>= second) parser := by
  intro state ready
  rw [runOn_bind, runOn_get]
  exact congrArg (runOn · state) (standard state ready.standard)

/-- At tokens of some kinds a parser consumes nothing and does what another one does. -/
def StopsAt (stops : Token.Kind → Prop) (parser finish : Parse α) : Prop :=
  ∀ (state : State) (tokens : Stream' Token), state.Stands tokens → stops tokens.head.kind →
    ∃ after, state.Moves [] tokens after ∧ runOn parser state = runOn finish after

/-- A parser stops before it does anything. -/
theorem StopsAt.refl (stops : Token.Kind → Prop) (parser : Parse α) :
    StopsAt stops parser parser :=
  fun state _ stands _ => ⟨state, ⟨stands, rfl, rfl, rfl⟩, rfl⟩

/-- A parser stops behind a look at the next token. -/
theorem StopsAt.look {stops : Token.Kind → Prop} {second : Token.Kind → Parse α} {finish : Parse α}
    (same : ∀ kind, stops kind → Same (second kind) finish) :
    StopsAt stops (currentKind >>= second) finish := by
  intro state tokens stands stopped
  obtain ⟨after, moves, ran⟩ := currentKind_moves stands
  exact ⟨after, moves, ran.trans (same _ stopped after moves.stands.ready)⟩

/-- Nothing comes behind a fault at the next token. -/
theorem same_unexpected_bind {expected : List Token.Kind} {second : β → Parse α} :
    Same (unexpected expected >>= second) (unexpected expected) := by
  intro state _
  simp only [unexpected, runOn_bind]
  rcases runOn current state with ⟨fault | token, after⟩ <;> rfl

/-- One more open construct changes nothing in what is ahead. -/
theorem State.Stands.deeper {state : State} {tokens : Stream' Token}
    (stands : state.Stands tokens) :
    { state with depth := state.depth + 1 : State }.Stands tokens :=
  ⟨⟨stands.ready.standard, stands.ready.counted⟩, stands.faces, stands.looked⟩

/-- What is consumed in a construct is consumed when it is closed again. -/
theorem State.Moves.closed {before after : State} {front : List Token} {rest : Stream' Token}
    (moves : { before with depth := before.depth + 1 : State }.Moves front rest after) :
    before.Moves front rest { after with depth := after.depth - 1 } where
  stands := ⟨⟨moves.stands.ready.standard, moves.stands.ready.counted⟩, moves.stands.faces,
    moves.stands.looked⟩
  depth := Nat.sub_eq_of_eq_add moves.depth
  consumed := moves.consumed
  unread := moves.unread

/-- With room for a construct, its content is run one construct deeper. -/
theorem runOn_construct (content : Parse α) {state : State} (room : ¬ depthLimit ≤ state.depth) :
    runOn (do enter; let value ← content; leave; Pure.pure value : Parse α) state =
      match runOn content { state with depth := state.depth + 1 } with
      | (.ok value, after) => (.ok value, { after with depth := after.depth - 1 })
      | (.error fault, after) => (.error fault, after) := by
  rw [runOn_bind, runOn_enter, if_neg room]
  dsimp only
  rw [runOn_bind]
  rcases runOn content { state with depth := state.depth + 1 } with ⟨fault | value, after⟩ <;> rfl

/-- Without room a construct faults at its first token. -/
theorem construct_tooDeep (content : Parse α) {state : State} {tokens : Stream' Token}
    (full : depthLimit ≤ state.depth) (stands : state.Stands tokens) :
    ∃ after, runOn (do enter; let value ← content; leave; Pure.pure value : Parse α) state =
      (.error (tooDeepAt tokens.head), after) := by
  obtain ⟨after, ran, _⟩ := current_moves stands
  refine ⟨after, ?_⟩
  rw [runOn_bind, runOn_enter, if_pos full]
  simp only [Parse.tooDeep, runOn_bind, ran, runOn_throw]
  rfl

namespace Expects

variable {steps : Nat} {fact : Token.Kind → Prop} {asked left : List Token.Kind}
  {parser twin : Parse α} {phrase : List Token → Prop}

/-- What is expected can be described in another way. -/
theorem mono {narrower : List Token → Prop} {fewer : List Token.Kind}
    (expects : Expects steps fact asked parser twin narrower fewer) (widens : fewer ⊆ left)
    (holds : ∀ tokens, narrower tokens → phrase tokens) :
    Expects steps fact asked parser twin phrase left := by
  intro state tokens stands few known
  exact (expects state tokens stands few known).mono (fun _ inside => inside) widens holds

/-- What holds with less known, with more kinds asked for or with more items ahead holds
with more known, with fewer kinds and with fewer items. -/
theorem weaken {weaker : Token.Kind → Prop} {more : List Token.Kind} {count : Nat}
    (expects : Expects count weaker more parser twin phrase left) (fewer : steps ≤ count)
    (known : ∀ kind, fact kind → weaker kind) (included : asked ⊆ more) :
    Expects steps fact asked parser twin phrase left := by
  intro state tokens stands few holds
  exact (expects state tokens stands (Nat.le_trans few fewer) (known _ holds)).mono included
    (fun _ inside => inside) fun _ isPhrase => isPhrase

/-- A parser can be replaced by one that does the same. -/
theorem congr {second secondTwin : Parse α} (same : Same parser second)
    (sameTwin : Same twin secondTwin)
    (expects : Expects steps fact asked second secondTwin phrase left) :
    Expects steps fact asked parser twin phrase left := by
  intro state tokens stands few holds
  rw [same state stands.ready]
  refine (expects state tokens stands few holds).quiet ⟨stands, rfl, rfl, rfl⟩ ?_
    fun _ inside => inside
  intro other others stands _
  exact ⟨other, ⟨stands, rfl, rfl, rfl⟩, sameTwin other stands.ready⟩

/-- A value is given without consuming anything. -/
theorem pure {value : α} (holds : phrase []) (included : asked ⊆ left) :
    Expects steps fact asked (Pure.pure value : Parse α) (Pure.pure value) phrase left := by
  intro state tokens stands _ _
  refine ⟨[], tokens, rfl, ⟨stands, rfl, rfl, rfl⟩, holds, fun _ => included, ?_⟩
  intro other others stands _ _
  exact ⟨other, rfl, stands, rfl, rfl, rfl⟩

/-- Parsers in a row expect phrases in a row. A phrase of the first one is not too short if
the second one may rely on fewer items ahead. -/
theorem bindFewer {first firstTwin : Parse β} {second secondTwin : β → Parse α} {count : Nat}
    {early late : List Token → Prop} {middle : List Token.Kind}
    (front : Expects steps fact asked first firstTwin early middle)
    (enough : ∀ tokens, early tokens → steps ≤ count + tokens.length)
    (back : ∀ value, Expects count AnyKind middle (second value) (secondTwin value) late left)
    (productive : ∃ tokens, late tokens)
    (joined : ∀ opening closing, early opening → late closing → phrase (opening ++ closing)) :
    Expects steps fact asked (first >>= second) (firstTwin >>= secondTwin) phrase left := by
  intro state tokens stands few holds
  have opened := front state tokens stands few holds
  rw [runOn_bind]
  generalize runOn first state = outcome at opened ⊢
  rcases outcome with ⟨fault | value, after⟩
  · rcases opened with tooDeep | ⟨opening, rest, expected, split, same, pulled, awaited, included,
      repeats⟩
    · exact .inl tooDeep
    · refine .inr ⟨opening, rest, expected, split, same, pulled, ?_, included, ?_⟩
      · refine ⟨awaited.present, awaited.increasing, fun kind inside => ?_⟩
        -- What the fault awaits completes the first phrase, and some second one comes behind.
        obtain ⟨token, more, isKind, isEarly⟩ := awaited.continues kind inside
        obtain ⟨closing, isLate⟩ := productive
        exact ⟨token, more ++ closing, isKind, by simpa using joined _ _ isEarly isLate⟩
      · intro other others stands depth resembles
        obtain ⟨last, ran⟩ := repeats other others stands depth resembles
        exact ⟨last, by rw [runOn_bind, ran]⟩
  · obtain ⟨opening, rest, rfl, moves, isEarly, included, repeats⟩ := opened
    have fewer : after.unread ≤ count := by
      have counted := moves.unread
      have bound := enough opening isEarly
      omega
    have closed := (back value after rest moves.stands fewer trivial).mono
      (fun _ inside => inside) (fun _ inside => inside) (joined opening · isEarly)
    refine closed.prepend moves ?_ included
    intro other others stands depth resembles
    obtain ⟨last, ran, further⟩ := repeats other others stands depth resembles
    exact ⟨last, further, by rw [runOn_bind, ran]⟩

/-- Parsers in a row expect phrases in a row. -/
theorem bind {first firstTwin : Parse β} {second secondTwin : β → Parse α}
    {early late : List Token → Prop} {middle : List Token.Kind}
    (front : Expects steps fact asked first firstTwin early middle)
    (back : ∀ value, Expects steps AnyKind middle (second value) (secondTwin value) late left)
    (productive : ∃ tokens, late tokens)
    (joined : ∀ opening closing, early opening → late closing → phrase (opening ++ closing)) :
    Expects steps fact asked (first >>= second) (firstTwin >>= secondTwin) phrase left :=
  front.bindFewer (fun _ _ => Nat.le_add_right _ _) back productive joined

/-- A parser for a symbol comes before a parser for others. -/
theorem call {first firstTwin : Parse β} {second secondTwin : β → Parse α} {symbol : Symbol}
    {symbols : List Symbol} {middle : List Token.Kind}
    (front : Expects steps fact asked first firstTwin (Derives [symbol]) middle)
    (back : ∀ value, Expects steps AnyKind middle (second value) (secondTwin value)
      (Derives symbols) left) :
    Expects steps fact asked (first >>= second) (firstTwin >>= secondTwin)
      (Derives (symbol :: symbols)) left :=
  front.bind back (exists_derives symbols) fun _ _ => Derives.append

/-- A parser that consumes nothing more changes nothing in what is expected. -/
theorem afterwards {first firstTwin : Parse β} {second secondTwin : β → Parse α}
    (front : Expects steps fact asked first firstTwin phrase left)
    (back : ∀ value, Expects steps AnyKind left (second value) (secondTwin value) (· = []) left) :
    Expects steps fact asked (first >>= second) (firstTwin >>= secondTwin) phrase left := by
  refine front.bind back ⟨[], rfl⟩ ?_
  rintro opening _ isPhrase rfl
  rwa [List.append_nil]

/-- The body of a production stands for its head. -/
theorem produce (rule : Rule)
    (expects : Expects steps fact asked parser twin (Derives rule.production.body) left) :
    Expects steps fact asked parser twin (Derives [.nonterminal rule.production.head]) left :=
  expects.mono (fun _ inside => inside) fun _ => derives_of_body (production_mem rule)

/-- Logging is not seen by the parser. -/
theorem silent {first : Parse β} {value : β} {second secondTwin : β → Parse α}
    (logs : ∀ state, ∃ log, runOn first state = (.ok value, { state with log := log }))
    (rest : Expects steps fact asked (second value) (secondTwin value) phrase left) :
    Expects steps fact asked (first >>= second) (first >>= secondTwin) phrase left := by
  have moves : ∀ {state : State} {tokens : Stream' Token} {log : List Rule},
      state.Stands tokens → state.Moves [] tokens { state with log := log } :=
    fun stands => ⟨⟨⟨stands.ready.standard, stands.ready.counted⟩, stands.faces, stands.looked⟩,
      rfl, rfl, rfl⟩
  intro state tokens stands few holds
  obtain ⟨log, ran⟩ := logs state
  have outcome := rest { state with log := log } tokens (moves stands).stands few holds
  rw [runOn_bind, ran]
  refine outcome.quiet (moves stands) ?_ fun _ inside => inside
  intro other others stands _
  obtain ⟨log, ran⟩ := logs other
  exact ⟨_, moves stands, by rw [runOn_bind, ran]⟩

/-- A logged production is not seen by the parser. -/
theorem reduce {rule : Rule} {second secondTwin : Unit → Parse α}
    (rest : Expects steps fact asked (second ()) (secondTwin ()) phrase left) :
    Expects steps fact asked (Parse.reduce rule >>= second) (Parse.reduce rule >>= secondTwin)
      phrase left :=
  silent (fun _ => ⟨_, rfl⟩) rest

/-- A production that is logged several times is not seen by the parser. -/
theorem reduceTimes {rule : Rule} {count : Nat} {second secondTwin : Unit → Parse α}
    (rest : Expects steps fact asked (second ()) (secondTwin ()) phrase left) :
    Expects steps fact asked (Parse.reduceTimes rule count >>= second)
      (Parse.reduceTimes rule count >>= secondTwin) phrase left := by
  refine silent (fun state => ?_) rest
  induction count generalizing state with
  | zero => exact ⟨_, rfl⟩
  | succ count inductionHypothesis => exact inductionHypothesis _

/-- The next token decides how to go on. Some kinds are treated one by one, and all others
alike: these have been asked for in vain then. -/
theorem choose {second secondTwin : Token.Kind → Parse α} (special : List Token.Kind)
    {other otherTwin : Parse α}
    (chosen : ∀ kind ∈ special, fact kind → Expects steps (· = kind) Token.Kind.all (second kind)
      (secondTwin kind) phrase left)
    (same : ∀ kind, kind ∉ special → Same (second kind) other)
    (sameTwin : ∀ kind, kind ∉ special → Same (secondTwin kind) otherTwin)
    (rest : Expects steps (fun kind => fact kind ∧ kind ∉ special) (asked ++ special) other
      otherTwin phrase left) :
    Expects steps fact asked (currentKind >>= second) (currentKind >>= secondTwin) phrase left := by
  intro state tokens stands few holds
  obtain ⟨after, moves, ran⟩ := currentKind_moves stands
  have fewer : after.unread ≤ steps := moves.unread.trans_le few
  rw [ran]
  by_cases inside : tokens.head.kind ∈ special
  · have outcome := chosen _ inside holds after tokens moves.stands fewer rfl
    refine outcome.quiet moves ?_ fun kind _ => kind.mem_all
    intro state others stands resembles
    obtain ⟨last, moves, ran⟩ := currentKind_moves stands
    exact ⟨last, moves, by rw [ran, resembles.same]⟩
  · have outcome := rest after tokens moves.stands fewer ⟨holds, inside⟩
    rw [same _ inside after moves.stands.ready]
    refine outcome.quiet moves ?_ (List.subset_append_left _ _)
    intro state others stands resembles
    obtain ⟨last, moves, ran⟩ := currentKind_moves stands
    -- The token of the twin is none of the special kinds, since they were all asked for.
    have outside : others.head.kind ∉ special := by
      rcases resembles with equal | absent
      · rwa [equal]
      · exact fun present => absent (List.mem_append_right _ present)
    exact ⟨last, moves, by rw [ran, sameTwin _ outside last moves.stands.ready]⟩

/-- The next token is of one kind or not. -/
theorem either {kind : Token.Kind} {taken takenTwin refused refusedTwin : Parse α}
    (accepts : Expects steps (· = kind) Token.Kind.all taken takenTwin phrase left)
    (refuses : Expects steps (fun found => fact found ∧ found ≠ kind) (asked ++ [kind]) refused
      refusedTwin phrase left) :
    Expects steps fact asked (currentKind >>= fun found => if found = kind then taken else refused)
      (currentKind >>= fun found => if found = kind then takenTwin else refusedTwin) phrase
      left := by
  refine choose [kind] ?_ (fun found other state _ => ?_) (fun found other state _ => ?_)
    (refuses.weaken (Nat.le_refl _) ?_ fun _ inside => inside)
  · intro found isKind _
    obtain rfl := List.mem_singleton.mp isKind
    rw [if_pos rfl, if_pos rfl]
    exact accepts
  · rw [if_neg (List.mem_singleton.not.mp other)]
  · rw [if_neg (List.mem_singleton.not.mp other)]
  · exact fun found holds => ⟨holds.1, List.mem_singleton.not.mp holds.2⟩

/-- The next token decides how to go on, and every kind is treated on its own. -/
theorem inspect {second secondTwin : Token.Kind → Parse α}
    (chosen : ∀ kind, fact kind → Expects steps (· = kind) Token.Kind.all (second kind)
      (secondTwin kind) phrase left) :
    Expects steps fact asked (currentKind >>= second) (currentKind >>= secondTwin) phrase left := by
  have none : Expects steps (fun kind => fact kind ∧ kind ∉ Token.Kind.all)
      (asked ++ Token.Kind.all) (second .endOfInput) (secondTwin .endOfInput) phrase left :=
    fun _ _ _ _ holds => absurd (Token.Kind.mem_all _) holds.2
  exact choose Token.Kind.all (fun kind _ => chosen kind)
    (fun kind absent => absurd kind.mem_all absent) (fun kind absent => absurd kind.mem_all absent)
    none

/-- Where no items are left, an ending is next. -/
theorem ended (other : ¬ fact .endOfInput) : Expects 0 fact asked parser twin phrase left := by
  intro state tokens stands few holds
  obtain ⟨token, shown, isEnding⟩ := State.shows_of_unread (Nat.le_zero.mp few)
  have heads : Except.ok token = (Except.ok tokens.head : Item) :=
    shown.symm.trans (stands.faces.get 0)
  rw [← Except.ok.inj heads, isEnding] at holds
  exact absurd holds other

/-- A loop ends at tokens of some kinds, also when it has no rounds left, and otherwise goes
on. -/
theorem loop {finish : Parse α} (stops : Token.Kind → Prop)
    (settled : ∀ kind, kind ∉ asked → stops kind) (ends : StopsAt stops parser finish)
    (endsTwin : StopsAt stops twin finish)
    (ended : Expects steps stops asked finish finish phrase left)
    (goes_on : Expects steps (fun kind => ¬ stops kind) asked parser twin phrase left) :
    Expects steps AnyKind asked parser twin phrase left := by
  intro state tokens stands few _
  by_cases stopped : stops tokens.head.kind
  · obtain ⟨after, moves, ran⟩ := ends state tokens stands stopped
    have outcome := ended after tokens moves.stands (moves.unread.trans_le few) stopped
    rw [ran]
    refine outcome.quiet moves ?_ fun _ inside => inside
    intro other others stands resembles
    -- A kind that was not asked for stops the twin, too.
    refine endsTwin other others stands ?_
    rcases resembles with same | absent
    · rwa [same]
    · exact settled _ absent
  · exact goes_on state tokens stands few stopped

/-- A fault at the next token names kinds that begin a phrase, and all that were asked for. -/
theorem unexpected {expected : List Token.Kind} (awaited : Awaited phrase [] expected)
    (named : ∀ kind, fact kind → asked ⊆ wanted expected) :
    Expects steps fact asked (Parse.unexpected expected) (Parse.unexpected expected : Parse α)
      phrase left := by
  intro state tokens stands _ holds
  obtain ⟨after, ran, pulled⟩ := unexpected_faults stands
  rw [ran]
  refine .inr ⟨[], tokens, expected, rfl, rfl, pulled, awaited, fun _ => named _ holds, ?_⟩
  intro other others stands _ _
  obtain ⟨last, ran, _⟩ := unexpected_faults stands
  exact ⟨last, ran⟩

/-- The next token decides how to go on. If it begins none of the listed phrases, the fault
names all kinds that do. -/
theorem select {second secondTwin : Token.Kind → Parse α} (head : Nonterminal)
    (present : head.first ≠ [])
    (opens : ∀ kind, First.Opens [.nonterminal head] kind →
      ∃ token more, token.kind = kind ∧ phrase (token :: more))
    (named : ∀ kind, fact kind → kind ∉ head.first → asked ⊆ wanted head.first)
    (same : ∀ kind, kind ∉ head.first → Same (second kind) (Parse.unexpected head.first))
    (sameTwin : ∀ kind, kind ∉ head.first → Same (secondTwin kind) (Parse.unexpected head.first))
    (chosen : ∀ kind ∈ head.first, fact kind → Expects steps (· = kind) Token.Kind.all (second kind)
      (secondTwin kind) phrase left) :
    Expects steps fact asked (currentKind >>= second) (currentKind >>= secondTwin) phrase left := by
  refine choose head.first chosen same sameTwin (unexpected ⟨present, first_increasing head, ?_⟩ ?_)
  · exact fun kind listed => opens kind (opens_of_mem_first listed)
  · rintro kind ⟨holds, absent⟩
    exact List.append_subset.mpr ⟨named kind holds absent, List.subset_append_left _ _⟩

/-- Consuming a token that is not an ending leaves fewer items ahead. -/
theorem advanceFewer {second secondTwin : Token → Parse α}
    (visible : ∀ kind, fact kind → kind ≠ .endOfInput)
    (rest : ∀ token, fact token.kind → Expects steps AnyKind [] (second token) (secondTwin token)
      (fun back => phrase (token :: back)) left) :
    Expects (steps + 1) fact asked (Parse.advance >>= second) (Parse.advance >>= secondTwin) phrase
      left := by
  intro state tokens stands few holds
  obtain ⟨after, ran, moves⟩ := advance_moves stands (visible _ holds)
  have fewer : after.unread ≤ steps := by
    have counted := moves.unread
    rw [List.length_singleton] at counted
    omega
  have outcome := rest tokens.head holds after tokens.tail moves.stands fewer trivial
  have split : tokens = [tokens.head] ++ₛ tokens.tail := (Stream'.eta tokens).symm
  rw [runOn_bind, ran, split]
  refine outcome.prepend moves ?_ fun empty => absurd empty (List.cons_ne_nil _ _)
  intro other others stands _ _
  obtain ⟨last, ran, moves⟩ := advance_moves stands (visible _ holds)
  exact ⟨last, moves, by rw [runOn_bind, ran]; rfl⟩

/-- A token that is derived from a symbol is consumed before a parser for other symbols. -/
theorem consume {second secondTwin : Token → Parse α} {symbol : Symbol} {symbols : List Symbol}
    (visible : ∀ kind, fact kind → kind ≠ .endOfInput)
    (single : ∀ token, fact token.kind → Derives [symbol] [token])
    (rest : ∀ token, fact token.kind → Expects steps AnyKind [] (second token) (secondTwin token)
      (Derives symbols) left) :
    Expects steps fact asked (Parse.advance >>= second) (Parse.advance >>= secondTwin)
      (Derives (symbol :: symbols)) left := by
  have expects : Expects (steps + 1) fact asked (Parse.advance >>= second)
      (Parse.advance >>= secondTwin) (Derives (symbol :: symbols)) left :=
    advanceFewer visible fun token holds => (rest token holds).mono (fun _ inside => inside)
      fun _ derives => (single token holds).append derives
  exact expects.weaken (Nat.le_succ steps) (fun _ holds => holds) fun _ inside => inside

/-- The last step of a parser consumes nothing. -/
theorem finish {value : α} (included : asked ⊆ left) :
    Expects steps fact asked (Pure.pure value : Parse α) (Pure.pure value) (Derives []) left :=
  pure Relation.ReflTransGen.refl included

/-- A token of one kind is demanded, and leaves fewer items ahead. If it is missing, the fault
names its kind and others that may stand there. -/
theorem demand {kind : Token.Kind} {expected : List Token.Kind}
    {second secondTwin : Token → Parse α} (visible : kind ≠ .endOfInput) (listed : kind ∈ expected)
    (awaited : Awaited phrase [] expected)
    (named : ∀ found, fact found → found ≠ kind → asked ⊆ wanted expected)
    (rest : ∀ token, token.kind = kind → Expects steps AnyKind [] (second token) (secondTwin token)
      (fun back => phrase (token :: back)) left) :
    Expects (steps + 1) fact asked
      (currentKind >>= fun found =>
        (if found = kind then Parse.advance else Parse.unexpected expected) >>= second)
      (currentKind >>= fun found =>
        (if found = kind then Parse.advance else Parse.unexpected expected) >>= secondTwin)
      phrase left := by
  have split (continuation : Token → Parse α) (found : Token.Kind) :
      (if found = kind then Parse.advance else Parse.unexpected expected) >>= continuation =
        if found = kind then Parse.advance >>= continuation
        else Parse.unexpected expected >>= continuation :=
    apply_ite (· >>= continuation) _ _ _
  simp only [split]
  refine either (advanceFewer (fun _ same => same ▸ visible) rest) ?_
  refine congr same_unexpected_bind same_unexpected_bind (unexpected awaited ?_)
  rintro found ⟨holds, other⟩
  refine List.append_subset.mpr ⟨named found holds other, ?_⟩
  exact List.cons_subset.mpr ⟨List.mem_append_left _ listed, List.nil_subset _⟩

/-- A wanted token leaves fewer items ahead. If it is missing, the fault names its kind. -/
theorem expectFewer {kind : Token.Kind} {second secondTwin : Token → Parse α}
    (visible : kind ≠ .endOfInput)
    (awaits : ∃ token more, token.kind = kind ∧ phrase (token :: more))
    (named : ∀ found, fact found → found ≠ kind → asked ⊆ wanted [kind])
    (rest : ∀ token, token.kind = kind → Expects steps AnyKind [] (second token) (secondTwin token)
      (fun back => phrase (token :: back)) left) :
    Expects (steps + 1) fact asked (Parse.expect kind >>= second) (Parse.expect kind >>= secondTwin)
      phrase left := by
  unfold Parse.expect
  rw [bind_assoc, bind_assoc]
  refine demand visible List.mem_cons_self ⟨List.cons_ne_nil _ _, List.pairwise_singleton _ _, ?_⟩
    named rest
  intro found isKind
  obtain rfl := List.mem_singleton.mp isKind
  exact awaits

/-- A wanted token comes before a parser for other symbols. -/
theorem expect {kind : Token.Kind} {second secondTwin : Token → Parse α} {symbols : List Symbol}
    (visible : kind ≠ .endOfInput)
    (named : ∀ found, fact found → found ≠ kind → asked ⊆ wanted [kind])
    (rest : ∀ token, token.kind = kind → Expects steps AnyKind [] (second token) (secondTwin token)
      (Derives symbols) left) :
    Expects steps fact asked (Parse.expect kind >>= second) (Parse.expect kind >>= secondTwin)
      (Derives (.terminal kind :: symbols)) left := by
  have starts : ∀ token : Token, token.kind = kind → ∀ back, Derives symbols back →
      Derives (.terminal kind :: symbols) (token :: back) :=
    fun token same back derives => (derives_terminal same).append derives
  have expects : Expects (steps + 1) fact asked (Parse.expect kind >>= second)
      (Parse.expect kind >>= secondTwin) (Derives (.terminal kind :: symbols)) left := by
    refine expectFewer visible ?_ named fun token same =>
      (rest token same).mono (fun _ inside => inside) (starts token same)
    obtain ⟨more, derives⟩ := exists_derives symbols
    exact ⟨.bare kind, more, rfl, starts _ rfl more derives⟩
  exact expects.weaken (Nat.le_succ steps) (fun _ holds => holds) fun _ inside => inside

/-- A wanted token comes where nothing was asked for before. -/
theorem expectNext {kind : Token.Kind} {second secondTwin : Token → Parse α} {symbols : List Symbol}
    (visible : kind ≠ .endOfInput)
    (rest : ∀ token, token.kind = kind → Expects steps AnyKind [] (second token) (secondTwin token)
      (Derives symbols) left) :
    Expects steps fact [] (Parse.expect kind >>= second) (Parse.expect kind >>= secondTwin)
      (Derives (.terminal kind :: symbols)) left :=
  expect visible (fun _ _ _ => List.nil_subset _) rest

/-- A wanted token comes where it is known to stand. -/
theorem expectKnown {kind : Token.Kind} {second secondTwin : Token → Parse α}
    {symbols : List Symbol} (visible : kind ≠ .endOfInput)
    (rest : ∀ token, token.kind = kind → Expects steps AnyKind [] (second token) (secondTwin token)
      (Derives symbols) left) :
    Expects steps (· = kind) asked (Parse.expect kind >>= second) (Parse.expect kind >>= secondTwin)
      (Derives (.terminal kind :: symbols)) left :=
  expect visible (fun _ same other => absurd same other) rest

/-- Too many open constructs are found before anything else. -/
theorem tooDeep : Expects steps fact asked (Parse.tooDeep : Parse α) twin phrase left := by
  intro state tokens stands _ _
  obtain ⟨after, ran, _⟩ := current_moves stands
  have faults :
      runOn (Parse.tooDeep : Parse α) state = (.error (tooDeepAt tokens.head), after) := by
    simp only [Parse.tooDeep, runOn_bind, ran, runOn_throw]
    rfl
  rw [faults]
  exact .inl ⟨_, rfl⟩

/-- A construct expects what its content does. -/
theorem construct (expects : Expects steps fact asked parser twin phrase left) :
    Expects steps fact asked (do enter; let value ← parser; leave; Pure.pure value)
      (do enter; let value ← twin; leave; Pure.pure value) phrase left := by
  intro state tokens stands few holds
  by_cases full : depthLimit ≤ state.depth
  · obtain ⟨after, faults⟩ := construct_tooDeep parser full stands
    rw [faults]
    exact .inl ⟨_, rfl⟩
  · have inner := expects _ tokens stands.deeper few holds
    rw [runOn_construct parser full]
    generalize runOn parser { state with depth := state.depth + 1 } = outcome at inner ⊢
    -- The twin is as deep as the parser, so there is room for the construct in both.
    rcases outcome with ⟨fault | value, after⟩
    · rcases inner with tooDeep | ⟨front, rest, expected, split, same, pulled, awaited, included,
        repeats⟩
      · exact .inl tooDeep
      · refine .inr ⟨front, rest, expected, split, same, pulled, awaited, included, ?_⟩
        intro other others stands depth resembles
        obtain ⟨last, ran⟩ := repeats _ others stands.deeper (congrArg (· + 1) depth) resembles
        exact ⟨last, by rw [runOn_construct twin (depth ▸ full), ran]⟩
    · obtain ⟨front, rest, split, moves, isPhrase, included, repeats⟩ := inner
      refine ⟨front, rest, split, moves.closed, isPhrase, included, ?_⟩
      intro other others stands depth resembles
      obtain ⟨last, ran, moves⟩ :=
        repeats _ others stands.deeper (congrArg (· + 1) depth) resembles
      exact ⟨_, by rw [runOn_construct twin (depth ▸ full), ran], moves.closed⟩

end Expects

end StartEnd.Parse
