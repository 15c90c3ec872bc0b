import StartEnd.Proofs.Parse.Supply
import StartEnd.Proofs.Reading.Mark
import StartEnd.Proofs.Tree.Texts

/-!
# How parsers are composed

A parser of a construct looks at tokens, consumes them, reads the tables, logs productions
and calls the parsers of the constructs inside it, one after another. A token that is looked
at tells its kind only; its text goes into the value when it is consumed, and nowhere else.
This is said here once for all parsers, and without a run: a composition is a function of
the parsers of the constructs inside, beside a twin that is given values without their
texts.

What holds of every run follows by induction over the composition. The twin does the same
on tokens without texts. A value has the texts of the tokens that were consumed for it, in
their order. As many constructs are open behind a value as before. And where all constructs
that may be opened are parsed alike, so is what is composed of them.
-/

namespace StartEnd

/-- A token with nothing but its kind. -/
def Token.erased (token : Token) : Token :=
  if token.kind = .endOfInput then .ending {} else { kind := token.kind, value := "" }

/-- A token without its text keeps its kind. -/
@[simp] theorem Token.kind_erased (token : Token) : token.erased.kind = token.kind := by
  unfold erased
  split
  case isTrue ends => exact ends.symm
  case isFalse _ => rfl

/-- A token without its text has no place. -/
@[simp] theorem Token.span_erased (token : Token) : token.erased.span = {} := by
  unfold erased
  split <;> rfl

/-- A token of a name or a number without its text has none. -/
theorem Token.value_erased {token : Token} (visible : token.kind ≠ .endOfInput) :
    token.erased.value = "" := by
  simp [erased, visible]

/-- A cause with another text of its token. -/
def Fault.Cause.relabel (text : String) : Fault.Cause → Fault.Cause
  | .unexpectedToken _ expected => .unexpectedToken text expected
  | .unrecognisedCharacter character => .unrecognisedCharacter character
  | .unexpectedEndOfInput expected => .unexpectedEndOfInput expected
  | .nestingTooDeep limit => .nestingTooDeep limit

/-- Of two other texts the second one counts. -/
@[simp] theorem Fault.Cause.relabel_relabel (text other : String) (cause : Fault.Cause) :
    (cause.relabel text).relabel other = cause.relabel other := by
  cases cause <;> rfl

/-- A cause without the text of its token. -/
def Fault.Cause.erased : Fault.Cause → Fault.Cause := .relabel ""

/-- A fault without its place and the text of its token. -/
def Fault.erased (fault : Fault) : Fault := { cause := fault.cause.erased, position := {} }

/-- A token without its text is refused alike. -/
@[simp] theorem Fault.erased_unexpected (token : Token) (expected : List Token.Kind) :
    (Fault.unexpected token expected).erased = Fault.unexpected token.erased expected := by
  by_cases ends : token.kind = .endOfInput
  · simp [Fault.unexpected, Fault.erased, Fault.Cause.erased, Fault.Cause.relabel, ends]
  · simp [Fault.unexpected, Fault.erased, Fault.Cause.erased, Fault.Cause.relabel, ends,
      Token.value_erased]

/-- An item without a text and a place. -/
def Item.erased : Item → Item
  | .ok token => .ok token.erased
  | .error fault => .error fault.erased

/-- The texts of the names and numbers among some tokens. -/
def openTexts (tokens : List Token) : List String :=
  (tokens.filter (·.kind.isOpen)).map Token.value

@[simp] theorem openTexts_nil : openTexts [] = [] := rfl

@[simp] theorem openTexts_append (front back : List Token) :
    openTexts (front ++ back) = openTexts front ++ openTexts back := by
  simp [openTexts]

/-- A token whose kind fixes its text is no name and no number. -/
theorem openTexts_closed {token : Token} (closed : token.kind.isOpen = false) :
    openTexts [token] = [] := by
  simp [openTexts, closed]

/-- A name or a number has its text. -/
theorem openTexts_open {token : Token} (isOpen : token.kind.isOpen = true) :
    openTexts [token] = [token.value] := by
  simp [openTexts, isOpen]

namespace Parse

namespace State

/-- A state whose tokens have nothing but their kinds. -/
def erased (state : State) : State :=
  { state with
    stream := state.stream.map Item.erased
    lookahead := state.lookahead.map Token.erased
    lastSpan := {} }

/-- Asking gives the same item without its text. -/
theorem supply_erased (state : State) :
    state.erased.supply.head = state.supply.head.erased ∧
      state.erased.asked = state.asked.erased := by
  obtain ⟨stream, lookahead, lastSpan, tables, log, depth, pulled, widest⟩ := state
  rcases stream with _ | ⟨fault | token, rest⟩
  · exact ⟨rfl, rfl⟩
  · exact ⟨rfl, rfl⟩
  · refine ⟨rfl, ?_⟩
    simp [erased, asked, supply, Item.erased, Except.toOption, Stream'.cons_append_stream]

/-- Keeping a token keeps it without its text. -/
theorem erased_keeping (state : State) (token : Token) :
    (state.keeping token).erased = state.erased.keeping token.erased := by
  simp [erased, keeping]

/-- Between two states tokens were consumed, and none of them was an ending. -/
structure Takes (before : State) (tokens : List Token) (after : State) : Prop where
  view : before.view = tokens.map Except.ok ++ₛ after.view
  visible : ∀ token ∈ tokens, token.kind ≠ .endOfInput
  unread : after.unread + tokens.length = before.unread

/-- Where the view is the same nothing was consumed. -/
theorem Takes.nil {before after : State} (same : after.view = before.view)
    (few : after.unread = before.unread) : before.Takes [] after :=
  ⟨same.symm, by simp, few⟩

/-- Tokens that are consumed one after another. -/
theorem Takes.append {before between after : State} {front back : List Token}
    (early : before.Takes front between) (late : between.Takes back after) :
    before.Takes (front ++ back) after where
  view := by rw [early.view, late.view, List.map_append, Stream'.append_append_stream]
  visible := List.forall_mem_append.mpr ⟨early.visible, late.visible⟩
  unread := by rw [← early.unread, ← late.unread, List.length_append]; omega

/-- The kind of the next token, if there is one, is of a given sort. -/
def NextKind (state : State) (fact : Token.Kind → Prop) : Prop :=
  ∀ token, state.view.head = .ok token → fact token.kind

end State

/-- Where the texts of a value stand, and the value without them. -/
structure Form (α : Type) where
  texts : α → List String
  erased : α → α

namespace Form

/-- A value without texts. -/
@[simps] def silent {α : Type} : Form α := ⟨fun _ => [], id⟩

/-- A value whose texts stand behind others. -/
@[simps] def behind {α : Type} (held : List String) (form : Form α) : Form α :=
  ⟨fun value => held ++ form.texts value, form.erased⟩

/-- A consumed token: its text if it is a name or a number. -/
@[simps] def token : Form Token := ⟨fun token => openTexts [token], Token.erased⟩

/-- A token of a kind that fixes its text. -/
@[simps] def fixed : Form Token := ⟨fun _ => [], Token.erased⟩

/-- The token of a name. -/
@[simps] def named : Form Token :=
  ⟨fun token => [token.value], fun _ => { kind := .identifier, value := "" }⟩

/-- A name. -/
@[simps] def identifier : Form Identifier := ⟨fun name => [name.value], Identifier.relabel []⟩

/-- An expression. -/
@[simps] def expr : Form Expr := ⟨Expr.texts, Expr.relabel []⟩

/-- A comparison. -/
@[simps] def condition : Form Condition := ⟨Condition.texts, Condition.relabel []⟩

/-- An assignment. -/
@[simps] def assign : Form Assign := ⟨Assign.texts, Assign.relabel []⟩

/-- An advance of a loop. -/
@[simps] def step : Form Step := ⟨Step.texts, Step.relabel []⟩

/-- A typed name. -/
@[simps] def parameter : Form Parameter :=
  ⟨fun parameter => [parameter.name.value],
    fun parameter => { parameter with name := parameter.name.relabel [] }⟩

/-- Typed names. -/
@[simps] def parameters : Form (List Parameter) := ⟨Parameter.listTexts, Parameter.relabelList []⟩

/-- A statement. -/
@[simps] def stmt : Form Stmt := ⟨Stmt.texts, Stmt.relabel []⟩

/-- Statements in a row. -/
@[simps] def stmts : Form (List Stmt) := ⟨List.flatMap Stmt.texts, List.map (Stmt.relabel [])⟩

/-- An `if` link. -/
@[simps] def branch : Form Branch := ⟨Branch.texts, Branch.relabel []⟩

/-- A block. -/
@[simps] def block : Form Block := ⟨Block.texts, Block.relabel []⟩

/-- A program. -/
@[simps] def program : Form Program := ⟨Program.texts, Program.relabel []⟩

end Form

/-- A parser that is composed of the primitives and of the parsers of inner constructs, beside
its twin. Where the fact holds of the kind of the next token and the given texts are held
already, a value has these texts and those of the tokens that are consumed for it. -/
inductive Composed : {α : Type} → (Token.Kind → Prop) → List String → Form α →
    (Nested → Parse α) → (Nested → Parse α) → Prop where
  | pure {α : Type} {fact : Token.Kind → Prop} {held : List String} {form : Form α}
      {value twin : α} (texts : form.texts value = held) (erased : form.erased value = twin) :
    Composed fact held form (fun _ => Pure.pure value) (fun _ => Pure.pure twin)
  | throw {α : Type} {fact : Token.Kind → Prop} {held : List String} {form : Form α}
      {fault twin : Fault} (erased : fault.erased = twin) :
    Composed fact held form (fun _ => MonadExcept.throw fault) (fun _ => MonadExcept.throw twin)
  | frame {α : Type} {fact : Token.Kind → Prop} {held : List String} {form : Form α}
      {parser twin : Nested → Parse α} (framed : Composed fact [] form parser twin) :
    Composed fact held (form.behind held) parser twin
  | chain {α β : Type} {fact : Token.Kind → Prop} {held : List String} {form : Form α}
      {between : Form β} {first firstTwin : Nested → Parse β}
      {second secondTwin : Nested → β → Parse α}
      (front : Composed fact held between first firstTwin)
      (back : ∀ value, Composed (fun _ => True) (between.texts value) form
        (fun inner => second inner value) (fun inner => secondTwin inner (between.erased value))) :
    Composed fact held form (fun inner => first inner >>= second inner)
      (fun inner => firstTwin inner >>= secondTwin inner)
  | get {α : Type} {fact : Token.Kind → Prop} {held : List String} {form : Form α}
      {second secondTwin : Nested → State → Parse α}
      (rest : ∀ state : State, Composed fact held form (fun inner => second inner state)
        (fun inner => secondTwin inner state.erased)) :
    Composed fact held form (fun inner => MonadState.get >>= second inner)
      (fun inner => MonadState.get >>= secondTwin inner)
  | current {α : Type} {fact : Token.Kind → Prop} {held : List String} {form : Form α}
      {second secondTwin : Nested → Token → Parse α}
      (rest : ∀ token : Token, Composed (· = token.kind) held form
        (fun inner => second inner token) (fun inner => secondTwin inner token.erased)) :
    Composed fact held form (fun inner => Parse.current >>= second inner)
      (fun inner => Parse.current >>= secondTwin inner)
  | ahead {α : Type} {fact : Token.Kind → Prop} {held : List String} {form : Form α}
      {second secondTwin : Nested → Token → Parse α} (distance : Nat)
      (rest : ∀ token : Token, Composed (fun _ => True) held form
        (fun inner => second inner token) (fun inner => secondTwin inner token.erased)) :
    Composed fact held form (fun inner => Parse.peek distance >>= second inner)
      (fun inner => Parse.peek distance >>= secondTwin inner)
  | advance {α : Type} {fact : Token.Kind → Prop} {held : List String} {form : Form α}
      {second secondTwin : Nested → Token → Parse α}
      (rest : ∀ token : Token, fact token.kind → Composed (fun _ => True)
        (held ++ openTexts [token]) form
        (fun inner => second inner token) (fun inner => secondTwin inner token.erased))
      (refused : ∀ token : Token, fact token.kind → token.kind = .endOfInput →
        ∃ fault, ∀ inner, second inner token = MonadExcept.throw fault) :
    Composed fact held form (fun inner => Parse.advance >>= second inner)
      (fun inner => Parse.advance >>= secondTwin inner)
  | reduce {fact : Token.Kind → Prop} (rule : Rule) :
    Composed fact [] .silent (fun _ => Parse.reduce rule) (fun _ => Parse.reduce rule)
  | expr {fact : Token.Kind → Prop} (place : BindingPower) :
    Composed fact [] .expr (fun inner => inner.expr place) (fun inner => inner.expr place)
  | body {fact : Token.Kind → Prop} :
    Composed fact [] .block (fun inner => inner.body) (fun inner => inner.body)
  | branch {fact : Token.Kind → Prop} :
    Composed fact [] .branch (fun inner => inner.branch) (fun inner => inner.branch)
  | steps {α : Type} {fact : Token.Kind → Prop} {held : List String} {form : Form α}
      {second secondTwin : Nested → Nat → Parse α}
      (rest : ∀ count, Composed fact held form (fun inner => second inner count)
        (fun inner => secondTwin inner count)) :
    Composed fact held form (fun inner => second inner inner.steps)
      (fun inner => secondTwin inner inner.steps)

variable {α β : Type} {fact : Token.Kind → Prop} {held : List String} {form : Form α}
  {parser twin : Parse α}

/-- A parser may run while other texts are held. -/
theorem Composed.bind {between : Form β} {first firstTwin : Nested → Parse β}
    {second secondTwin : Nested → β → Parse α} (front : Composed fact [] between first firstTwin)
    (back : ∀ value, Composed (fun _ => True) (held ++ between.texts value) form
      (fun inner => second inner value) (fun inner => secondTwin inner (between.erased value))) :
    Composed fact held form (fun inner => first inner >>= second inner)
      (fun inner => firstTwin inner >>= secondTwin inner) :=
  .chain front.frame back

/-- Parsers in a row give a value only if both do. -/
theorem exists_of_bind {first : Parse β} {second : β → Parse α} {state after : State} {value : α}
    (ran : runOn (first >>= second) state = (.ok value, after)) :
    ∃ found middle, runOn first state = (.ok found, middle) ∧
      runOn (second found) middle = (.ok value, after) := by
  rw [runOn_bind] at ran
  rcases early : runOn first state with ⟨fault | found, middle⟩
  · rw [early] at ran
    exact absurd (congrArg Prod.fst ran) (by simp)
  · rw [early] at ran
    exact ⟨found, middle, rfl, ran⟩

/-- A fault is no value. -/
theorem runOn_throw_ne_ok {fault : Fault} {state after : State} {value : α} :
    runOn (throw fault : Parse α) state ≠ (.ok value, after) :=
  fun ran => absurd (congrArg Prod.fst ran) (by simp [runOn_throw])

/-- Too many open constructs give no value. -/
theorem runOn_tooDeep_ne_ok {state after : State} {value : α} :
    runOn (tooDeep : Parse α) state ≠ (.ok value, after) := by
  intro ran
  obtain ⟨_, _, _, throws⟩ := exists_of_bind ran
  exact runOn_throw_ne_ok throws

/-- Opening a construct opens one and consumes nothing. -/
theorem enter_effect {state after : State} {value : Unit}
    (ran : runOn enter state = (.ok value, after)) :
    after.depth = state.depth + 1 ∧ after.view = state.view ∧ after.unread = state.unread := by
  rw [runOn_enter] at ran
  split at ran
  · exact absurd ran runOn_tooDeep_ne_ok
  · obtain ⟨_, rfl⟩ := Prod.mk.inj ran
    exact ⟨rfl, rfl, rfl⟩

namespace State

/-- Every token is of some kind. -/
theorem nextKind_any (state : State) : state.NextKind fun _ => True := fun _ _ => trivial

/-- The kind of a token that was looked at is known. -/
theorem nextKind_of_current {state after : State} {token : Token}
    (ran : runOn current state = (.ok token, after)) : after.NextKind (· = token.kind) := by
  intro next ahead
  obtain ⟨same, shown⟩ := view_peek ran
  rw [same] at ahead
  rw [Except.ok.inj (ahead.symm.trans shown)]

/-- The kind of a token that is consumed was known before. -/
theorem NextKind.of_advance {state after : State} {token : Token} (known : state.NextKind fact)
    (ran : runOn Parse.advance state = (.ok token, after)) : fact token.kind :=
  known token (by rw [view_advance ran]; rfl)

end State

/-! ## The twin on tokens without texts -/

/-- A value or a fault without texts and places. -/
def erasedResult (form : Form α) : Except Fault α → Except Fault α
  | .ok value => .ok (form.erased value)
  | .error fault => .error fault.erased

/-- An outcome without texts and places. -/
def erasedOutcome (form : Form α) (outcome : Except Fault α × State) : Except Fault α × State :=
  (erasedResult form outcome.1, outcome.2.erased)

/-- On tokens without texts the twin does the same without texts. -/
def Mirrors (fact : Token.Kind → Prop) (form : Form α) (parser twin : Parse α) : Prop :=
  ∀ state : State, state.NextKind fact →
    runOn twin state.erased = erasedOutcome form (runOn parser state)

namespace Mirrors

/-- What needs no fact holds with any. -/
theorem known (mirrors : Mirrors (fun _ => True) form parser twin) :
    Mirrors fact form parser twin :=
  fun state _ => mirrors state state.nextKind_any

/-- Parsers in a row mirror those of their twins. What is known behind the first one may
depend on its value. -/
theorem bindOf {between : Form β} {first firstTwin : Parse β} {second secondTwin : β → Parse α}
    (later : β → Token.Kind → Prop) (front : Mirrors fact between first firstTwin)
    (back : ∀ value, Mirrors (later value) form (second value) (secondTwin (between.erased value)))
    (knows : ∀ state value after, state.NextKind fact → runOn first state = (.ok value, after) →
      after.NextKind (later value)) :
    Mirrors fact form (first >>= second) (firstTwin >>= secondTwin) := by
  intro state known
  rw [runOn_bind, runOn_bind, front state known]
  rcases ran : runOn first state with ⟨fault | value, middle⟩
  · rfl
  · exact back value middle (knows state value middle known ran)

/-- Parsers in a row mirror those of their twins. -/
theorem bind {between : Form β} {first firstTwin : Parse β} {second secondTwin : β → Parse α}
    (front : Mirrors fact between first firstTwin)
    (back : ∀ value, Mirrors (fun _ => True) form (second value)
      (secondTwin (between.erased value))) :
    Mirrors fact form (first >>= second) (firstTwin >>= secondTwin) :=
  front.bindOf _ back fun _ _ after _ _ => after.nextKind_any

/-- Asking gives the same token without its text. -/
theorem pull : Mirrors fact .token Parse.pull Parse.pull := by
  intro state _
  obtain ⟨given, behind⟩ := state.supply_erased
  rw [runOn_pull, runOn_pull, given, behind]
  rcases state.supply.head with fault | token
  · rfl
  · rfl

/-- Queueing keeps the same token without its text. -/
theorem queue : Mirrors fact .token Parse.queue Parse.queue := by
  intro state _
  obtain ⟨given, behind⟩ := state.supply_erased
  rw [runOn_queue, runOn_queue, given, behind]
  rcases state.supply.head with fault | token
  · rfl
  · exact congrArg (Prod.mk _) (state.asked.erased_keeping token).symm

/-- Queueing several tokens gives the last of them without its text. -/
theorem queueMore (count : Nat) :
    Mirrors fact .token (Parse.queueMore count) (Parse.queueMore count) := by
  induction count generalizing fact with
  | zero => exact queue
  | succ count inductionHypothesis => exact queue.bind fun _ => inductionHypothesis

/-- Looking ahead gives the same token without its text. -/
theorem peek (distance : Nat) :
    Mirrors fact .token (Parse.peek distance) (Parse.peek distance) := by
  intro state known
  have kept : state.erased.lookahead = state.lookahead.map Token.erased := rfl
  rw [runOn_peek, runOn_peek, kept, List.getElem?_map, List.length_map]
  rcases state.lookahead[distance]? with _ | token
  · exact queueMore _ state known
  · rfl

/-- Consuming gives the same token without its text. -/
theorem advance : Mirrors fact .token Parse.advance Parse.advance := by
  intro state known
  have kept : state.erased.lookahead = state.lookahead.map Token.erased := rfl
  rw [runOn_advance, runOn_advance, kept]
  rcases state.lookahead with _ | ⟨token, rest⟩
  · have asked := pull state known
    rwa [runOn_pull, runOn_pull] at asked
  · rfl

end Mirrors

/-- Parsers of constructs that do the same on tokens without texts. -/
structure Nested.Mirrors (inner : Nested) : Prop where
  expr : ∀ place, Parse.Mirrors (fun _ => True) .expr (inner.expr place) (inner.expr place)
  body : Parse.Mirrors (fun _ => True) .block inner.body inner.body
  branch : Parse.Mirrors (fun _ => True) .branch inner.branch inner.branch

/-- What is composed does the same on tokens without texts, if the inner parsers do. The
induction is over the composition. -/
theorem Composed.mirrors {parser twin : Nested → Parse α}
    (composed : Composed fact held form parser twin) {inner : Nested} (mirrors : inner.Mirrors) :
    Mirrors fact form (parser inner) (twin inner) := by
  induction composed with
  | pure texts erased =>
    intro state _
    rw [runOn_pure, runOn_pure, ← erased]
    rfl
  | throw erased =>
    intro state _
    rw [runOn_throw, runOn_throw, ← erased]
    rfl
  | frame framed inductionHypothesis => exact inductionHypothesis
  | chain front back early late => exact early.bind late
  | get rest inductionHypothesis => exact fun state => inductionHypothesis state state
  | current rest inductionHypothesis =>
    exact (Mirrors.peek 0).bindOf _ inductionHypothesis fun _ _ _ _ => State.nextKind_of_current
  | ahead distance rest inductionHypothesis =>
    exact (Mirrors.peek distance).bind inductionHypothesis
  | @advance _ fact _ _ second secondTwin rest refused inductionHypothesis =>
    intro state known
    rw [runOn_bind, runOn_bind, Mirrors.advance state known]
    rcases ran : runOn Parse.advance state with ⟨fault | token, middle⟩
    · rfl
    · exact inductionHypothesis token (known.of_advance ran) middle middle.nextKind_any
  | reduce rule => exact fun _ _ => rfl
  | expr place => exact (mirrors.expr place).known
  | body => exact mirrors.body.known
  | branch => exact mirrors.branch.known
  | steps rest inductionHypothesis => exact inductionHypothesis inner.steps

/-- Too many open constructs are reported alike without texts. -/
theorem Mirrors.tooDeep : Mirrors fact form Parse.tooDeep Parse.tooDeep := by
  refine (Mirrors.peek 0).bind fun token state _ => ?_
  simp only [runOn_throw, erasedOutcome, erasedResult, Fault.erased, Fault.Cause.erased,
    Fault.Cause.relabel, Form.token, Token.span_erased]

/-- A construct does the same on tokens without texts, if its content does. -/
theorem Mirrors.construct (mirrors : Mirrors (fun _ => True) form parser twin) :
    Mirrors (fun _ => True) form (do enter; let value ← parser; leave; Pure.pure value)
      (do enter; let value ← twin; leave; Pure.pure value) := by
  have opened : Mirrors (fun _ => True) (.silent : Form Unit) enter enter := by
    intro state known
    rw [runOn_enter, runOn_enter]
    by_cases full : depthLimit ≤ state.depth
    · have alike : depthLimit ≤ state.erased.depth := full
      rw [if_pos full, if_pos alike]
      exact Mirrors.tooDeep state known
    · have alike : ¬ depthLimit ≤ state.erased.depth := full
      rw [if_neg full, if_neg alike]
      rfl
  refine opened.bind fun _ => mirrors.bind fun value => ?_
  have closed : Mirrors (fun _ => True) (.silent : Form Unit) leave leave := fun _ _ => rfl
  exact closed.bind fun _ _ _ => rfl

/-! ## The texts of consumed tokens -/

/-- Where tokens are consumed for a value, it has the given texts and theirs. -/
def Gathers (fact : Token.Kind → Prop) (held : List String) (form : Form α) (parser : Parse α) :
    Prop :=
  ∀ (state : State) (value : α) (after : State), state.NextKind fact →
    runOn parser state = (.ok value, after) →
    ∃ tokens, state.Takes tokens after ∧ form.texts value = held ++ openTexts tokens

/-- What needs no fact holds with any. -/
theorem Gathers.known (gathers : Gathers (fun _ => True) held form parser) :
    Gathers fact held form parser :=
  fun state value after _ => gathers state value after state.nextKind_any

/-- Behind a parser that consumes nothing the texts are those that were held before. -/
theorem Gathers.behind {first : Parse β} {second : β → Parse α} (later : β → Token.Kind → Prop)
    (back : ∀ value, Gathers (later value) held form (second value))
    (quiet : ∀ state value after, runOn first state = (.ok value, after) →
      (after.view = state.view ∧ after.unread = state.unread) ∧ after.NextKind (later value)) :
    Gathers fact held form (first >>= second) := by
  intro state value after _ ran
  obtain ⟨found, middle, early, late⟩ := exists_of_bind ran
  obtain ⟨⟨same, few⟩, known⟩ := quiet state found middle early
  obtain ⟨tokens, takes, texts⟩ := back found middle value after known late
  exact ⟨tokens, (State.Takes.nil same few).append takes, texts⟩

/-- Parsers of constructs whose values have the texts of the consumed tokens. -/
structure Nested.Gathers (inner : Nested) : Prop where
  expr : ∀ place, Parse.Gathers (fun _ => True) [] .expr (inner.expr place)
  body : Parse.Gathers (fun _ => True) [] .block inner.body
  branch : Parse.Gathers (fun _ => True) [] .branch inner.branch

/-- The values of what is composed have the texts of the consumed tokens, if those of the
inner parsers do. The induction is over the composition. -/
theorem Composed.gathers {parser twin : Nested → Parse α}
    (composed : Composed fact held form parser twin) {inner : Nested} (gathers : inner.Gathers) :
    Gathers fact held form (parser inner) := by
  induction composed with
  | pure texts erased =>
    intro state value after _ ran
    obtain ⟨given, rfl⟩ := Prod.mk.inj ran
    rw [← Except.ok.inj given, texts]
    exact ⟨[], .nil rfl rfl, by simp⟩
  | throw erased => exact fun _ _ _ _ ran => absurd ran runOn_throw_ne_ok
  | frame framed inductionHypothesis =>
    intro state value after known ran
    obtain ⟨tokens, takes, texts⟩ := inductionHypothesis state value after known ran
    exact ⟨tokens, takes, congrArg _ texts⟩
  | chain front back early late =>
    intro state value after known ran
    obtain ⟨found, middle, first, second⟩ := exists_of_bind ran
    obtain ⟨consumed, takes, isTexts⟩ := early state found middle known first
    obtain ⟨others, further, texts⟩ := late found middle value after middle.nextKind_any second
    refine ⟨consumed ++ others, takes.append further, ?_⟩
    rw [texts, isTexts, openTexts_append, List.append_assoc]
  | get rest inductionHypothesis => exact fun state => inductionHypothesis state state
  | current rest inductionHypothesis =>
    exact .behind _ inductionHypothesis fun _ _ _ ran =>
      ⟨⟨(view_peek ran).1, unread_peek ran⟩, State.nextKind_of_current ran⟩
  | ahead distance rest inductionHypothesis =>
    exact .behind _ inductionHypothesis fun _ _ after ran =>
      ⟨⟨(view_peek ran).1, unread_peek ran⟩, after.nextKind_any⟩
  | advance rest refused inductionHypothesis =>
    intro state value after known ran
    obtain ⟨token, middle, taken, second⟩ := exists_of_bind ran
    have isFact := known.of_advance taken
    -- Behind an ending there would be no value.
    have visible : token.kind ≠ .endOfInput := by
      intro ends
      obtain ⟨fault, throws⟩ := refused token isFact ends
      rw [throws inner] at second
      exact runOn_throw_ne_ok second
    have cost := unread_advance taken
    rw [State.weight_visible visible] at cost
    have takes : state.Takes [token] middle := ⟨view_advance taken, by simpa using visible, cost⟩
    obtain ⟨others, further, texts⟩ :=
      inductionHypothesis token isFact middle value after middle.nextKind_any second
    refine ⟨[token] ++ others, takes.append further, ?_⟩
    rw [texts, openTexts_append, List.append_assoc]
  | reduce rule =>
    intro state value after _ ran
    obtain ⟨_, rfl⟩ := Prod.mk.inj ran
    exact ⟨[], .nil rfl rfl, rfl⟩
  | expr place => exact (gathers.expr place).known
  | body => exact gathers.body.known
  | branch => exact gathers.branch.known
  | steps rest inductionHypothesis => exact inductionHypothesis inner.steps

/-- The value of a construct has the texts of the consumed tokens, if that of its content
does. -/
theorem Gathers.construct (gathers : Gathers (fun _ => True) held form parser) :
    Gathers (fun _ => True) held form (do enter; let value ← parser; leave; Pure.pure value) := by
  refine .behind (fun _ _ => True) (fun _ state value after known ran => ?_) fun _ _ after ran =>
    ⟨(enter_effect ran).2, after.nextKind_any⟩
  obtain ⟨found, middle, content, closing⟩ := exists_of_bind ran
  obtain ⟨given, rfl⟩ := Prod.mk.inj closing
  obtain ⟨tokens, takes, texts⟩ := gathers state found middle known content
  exact ⟨tokens, ⟨takes.view, takes.visible, takes.unread⟩, Except.ok.inj given ▸ texts⟩

/-! ## Open constructs -/

/-- As many constructs are open behind a value as before. -/
def Balanced (fact : Token.Kind → Prop) (parser : Parse α) : Prop :=
  ∀ (state : State) (value : α) (after : State), state.NextKind fact →
    runOn parser state = (.ok value, after) → after.depth = state.depth

/-- Queueing opens nothing. -/
theorem depth_queueMore (count : Nat) (state : State) :
    (runOn (queueMore count) state).2.depth = state.depth := by
  have queued (state : State) : (runOn queue state).2.depth = state.depth := by
    rw [runOn_queue]
    rcases state.supply.head with fault | token <;> rfl
  induction count generalizing state with
  | zero => exact queued state
  | succ count inductionHypothesis =>
    have first := queued state
    simp only [queueMore, runOn_bind]
    rcases ran : runOn queue state with ⟨fault | token, middle⟩
    all_goals rw [ran] at first
    · exact first
    · exact (inductionHypothesis middle).trans first

/-- Looking ahead opens nothing. -/
theorem depth_peek (distance : Nat) (state : State) :
    (runOn (peek distance) state).2.depth = state.depth := by
  rw [runOn_peek]
  rcases state.lookahead[distance]? with _ | token
  · exact depth_queueMore _ state
  · rfl

/-- Consuming opens nothing. -/
theorem depth_advance (state : State) : (runOn advance state).2.depth = state.depth := by
  rw [runOn_advance]
  rcases state.lookahead with _ | ⟨token, rest⟩ <;> rfl

/-- What needs no fact holds with any. -/
theorem Balanced.known (balanced : Balanced (fun _ => True) parser) : Balanced fact parser :=
  fun state value after _ => balanced state value after state.nextKind_any

/-- Behind a parser that opens nothing as many constructs are open as before. -/
theorem Balanced.behind {first : Parse β} {second : β → Parse α}
    (later : β → Token.Kind → Prop) (back : ∀ value, Balanced (later value) (second value))
    (level : ∀ state value after, runOn first state = (.ok value, after) →
      after.depth = state.depth ∧ after.NextKind (later value)) :
    Balanced fact (first >>= second) := by
  intro state value after _ ran
  obtain ⟨found, middle, early, late⟩ := exists_of_bind ran
  obtain ⟨same, known⟩ := level state found middle early
  exact (back found middle value after known late).trans same

/-- Parsers of constructs that close what they open. -/
structure Nested.Balanced (inner : Nested) : Prop where
  expr : ∀ place, Parse.Balanced (fun _ => True) (inner.expr place)
  body : Parse.Balanced (fun _ => True) inner.body
  branch : Parse.Balanced (fun _ => True) inner.branch

/-- What is composed closes what it opens, if the inner parsers do. The induction is over the
composition. -/
theorem Composed.balanced {parser twin : Nested → Parse α}
    (composed : Composed fact held form parser twin) {inner : Nested}
    (balanced : inner.Balanced) : Balanced fact (parser inner) := by
  have looked {distance : Nat} {state after : State} {token : Token}
      (ran : runOn (peek distance) state = (.ok token, after)) : after.depth = state.depth := by
    simpa [ran] using depth_peek distance state
  induction composed with
  | pure texts erased => exact fun _ _ _ _ ran => (Prod.mk.inj ran).2 ▸ rfl
  | throw erased => exact fun _ _ _ _ ran => absurd ran runOn_throw_ne_ok
  | frame framed inductionHypothesis => exact inductionHypothesis
  | chain front back early late =>
    intro state value after known ran
    obtain ⟨found, middle, first, second⟩ := exists_of_bind ran
    exact (late found middle value after middle.nextKind_any second).trans
      (early state found middle known first)
  | get rest inductionHypothesis => exact fun state => inductionHypothesis state state
  | current rest inductionHypothesis =>
    exact .behind _ inductionHypothesis fun _ _ _ ran =>
      ⟨looked ran, State.nextKind_of_current ran⟩
  | ahead distance rest inductionHypothesis =>
    exact .behind _ inductionHypothesis fun _ _ after ran => ⟨looked ran, after.nextKind_any⟩
  | advance rest refused inductionHypothesis =>
    intro state value after known ran
    obtain ⟨token, middle, taken, second⟩ := exists_of_bind ran
    have same : middle.depth = state.depth := by simpa [taken] using depth_advance state
    exact (inductionHypothesis token (known.of_advance taken) middle value after
      middle.nextKind_any second).trans same
  | reduce rule => exact fun _ _ _ _ ran => (Prod.mk.inj ran).2 ▸ rfl
  | expr place => exact (balanced.expr place).known
  | body => exact balanced.body.known
  | branch => exact balanced.branch.known
  | steps rest inductionHypothesis => exact inductionHypothesis inner.steps

/-- A construct is closed where it was opened, if its content is balanced. -/
theorem Balanced.construct (balanced : Balanced (fun _ => True) parser) :
    Balanced (fun _ => True) (do enter; let value ← parser; leave; Pure.pure value) := by
  intro state value after _ ran
  obtain ⟨_, opened, entered, ran⟩ := exists_of_bind ran
  obtain ⟨found, middle, content, closing⟩ := exists_of_bind ran
  obtain ⟨_, rfl⟩ := Prod.mk.inj closing
  have level := balanced opened found middle opened.nextKind_any content
  show middle.depth - 1 = state.depth
  rw [level, (enter_effect entered).1, Nat.add_sub_cancel]

/-! ## Inner parsers that are alike -/

/-- Parsers that do the same where at most so many constructs may still be opened. -/
def Agrees (room : Nat) (fact : Token.Kind → Prop) (parser twin : Parse α) : Prop :=
  ∀ state : State, state.NextKind fact → depthLimit ≤ state.depth + room →
    runOn twin state = runOn parser state

/-- What needs no fact holds with any. -/
theorem Agrees.known {room : Nat} (agrees : Agrees room (fun _ => True) parser twin) :
    Agrees room fact parser twin :=
  fun state _ => agrees state state.nextKind_any

/-- Behind a parser that closes what it opens parsers agree where they did before. -/
theorem Agrees.behind {room : Nat} {first firstTwin : Parse β} {second secondTwin : β → Parse α}
    (later : β → Token.Kind → Prop) (front : Agrees room fact first firstTwin)
    (back : ∀ value, Agrees room (later value) (second value) (secondTwin value))
    (level : ∀ state value after, state.NextKind fact → runOn first state = (.ok value, after) →
      after.depth = state.depth ∧ after.NextKind (later value)) :
    Agrees room fact (first >>= second) (firstTwin >>= secondTwin) := by
  intro state known full
  rw [runOn_bind, runOn_bind, front state known full]
  rcases ran : runOn first state with ⟨fault | value, middle⟩
  · rfl
  · obtain ⟨same, next⟩ := level state value middle known ran
    exact back value middle next (same ▸ full)

/-- Parsers of constructs that do the same where at most so many may still be opened. -/
structure Nested.Agrees (room : Nat) (inner other : Nested) : Prop where
  steps : other.steps = inner.steps
  expr : ∀ place, Parse.Agrees room (fun _ => True) (inner.expr place) (other.expr place)
  body : Parse.Agrees room (fun _ => True) inner.body other.body
  branch : Parse.Agrees room (fun _ => True) inner.branch other.branch

/-- What is composed of parsers that do the same does the same. The induction is over the
composition. -/
theorem Composed.agrees {parser twin : Nested → Parse α}
    (composed : Composed fact held form parser twin) {room : Nat} {inner other : Nested}
    (agrees : inner.Agrees room other) (balanced : inner.Balanced) :
    Agrees room fact (parser inner) (parser other) := by
  have same {fact : Token.Kind → Prop} {β : Type} {parser : Parse β} :
      Parse.Agrees room fact parser parser := fun _ _ _ => rfl
  have looked {distance : Nat} {state after : State} {token : Token}
      (ran : runOn (peek distance) state = (.ok token, after)) : after.depth = state.depth := by
    simpa [ran] using depth_peek distance state
  induction composed with
  | pure texts erased => exact same
  | throw erased => exact same
  | frame framed inductionHypothesis => exact inductionHypothesis
  | chain front back early late =>
    exact early.behind _ late fun state value after known ran =>
      ⟨front.balanced balanced state value after known ran, after.nextKind_any⟩
  | get rest inductionHypothesis => exact fun state => inductionHypothesis state state
  | current rest inductionHypothesis =>
    exact same.behind _ inductionHypothesis fun _ _ _ _ ran =>
      ⟨looked ran, State.nextKind_of_current ran⟩
  | ahead distance rest inductionHypothesis =>
    exact same.behind _ inductionHypothesis fun _ _ after _ ran => ⟨looked ran, after.nextKind_any⟩
  | advance rest refused inductionHypothesis =>
    intro state known full
    rw [runOn_bind, runOn_bind]
    rcases taken : runOn Parse.advance state with ⟨fault | token, middle⟩
    · rfl
    · have level : middle.depth = state.depth := by simpa [taken] using depth_advance state
      exact inductionHypothesis token (known.of_advance taken) middle middle.nextKind_any
        (level ▸ full)
  | reduce rule => exact same
  | expr place => exact (agrees.expr place).known
  | body => exact agrees.body.known
  | branch => exact agrees.branch.known
  | steps rest inductionHypothesis =>
    beta_reduce
    rw [agrees.steps]
    exact inductionHypothesis inner.steps

end Parse

end StartEnd
