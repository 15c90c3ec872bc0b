import StartEnd.Proofs.Parse.View
import StartEnd.Proofs.Reading.Mark

/-!
# Parsers that read marks

A parser reads a list of marks when on every state with tokens of these marks ahead it
consumes exactly them, gives the value it should, and logs the given productions. It
does so as long as the constructs it opens fit; otherwise it faults at the first token
that overflows. What stands behind the marks may matter, because a parser looks at the
token behind a phrase to find out that the phrase has ended.

Reading composes: of two parsers in a row, the first reads the front of the marks and
the second reads the rest. Each rule here takes one step of a parser.
-/

namespace StartEnd.Parse

/-- The tokens ahead of a state, none of them a fault. -/
def State.Faces (state : State) (tokens : Stream' Token) : Prop :=
  state.view = tokens.map Except.ok

/-- The fault of a token at which too many constructs would be open. -/
def tooDeepAt (token : Token) : Fault := ⟨.nestingTooDeep depthLimit.toUInt64, token.span.start⟩

/-- The kind with which marks begin, or that of what follows if there are none. -/
def Begins (marks : List Mark) (next : Token.Kind → Prop) (kind : Token.Kind) : Prop :=
  match marks with
  | [] => next kind
  | first :: _ => kind = first.kind

/-- Between two states the given tokens stay ahead and the given productions were
logged. -/
structure State.Reaches (before : State) (rules : List Rule) (ahead : Stream' Token)
    (after : State) : Prop where
  ready : after.Ready
  depth : after.depth = before.depth
  faces : after.Faces ahead
  log : after.log = rules.reverse ++ before.log

/-- What a parser does on a state with tokens of the given marks ahead. -/
def Reads {α : Type} (depth : Nat) (parser : Parse α) (marks : List Mark)
    (next : Token.Kind → Prop) (good : α → Prop) (rules : List Rule) : Prop :=
  ∀ (state : State) (tokens : List Token) (ahead : Stream' Token), state.Ready →
    state.depth = depth → depth ≤ depthLimit → state.Faces (tokens ++ₛ ahead) →
    Spells tokens marks → next ahead.head.kind →
    match overflow depth tokens marks with
    | none => ∃ value after, runOn parser state = (.ok value, after) ∧ good value ∧
        state.Reaches rules ahead after
    | some token => ∃ after, runOn parser state = (.error (tooDeepAt token), after)

/-- A state that faces tokens shows them. -/
theorem State.Faces.get {state : State} {tokens : Stream' Token} (faces : state.Faces tokens)
    (index : Nat) : state.view.get index = .ok (tokens.get index) := by
  rw [faces]
  rfl

/-- Behind a consumed token the state faces the others. -/
theorem State.Consumes.faces {before after : State} {token : Token} {tokens : Stream' Token}
    (consumes : before.Consumes token after) (faces : before.Faces tokens) :
    token = tokens.head ∧ after.Faces tokens.tail := by
  have same : Stream'.cons (.ok token) after.view = tokens.map Except.ok :=
    consumes.view.symm.trans faces
  have heads := congrArg Stream'.head same
  have tails := congrArg Stream'.tail same
  exact ⟨Except.ok.inj heads, tails⟩

/-- A state that faces tokens can be looked at. -/
theorem peek_faces (distance : Nat) {state : State} {tokens : Stream' Token}
    (ready : state.Ready) (faces : state.Faces tokens) :
    ∃ after, runOn (peek distance) state = (.ok (tokens.get distance), after) ∧
      state.Alike after ∧ after.Faces tokens := by
  rcases peek_outcome distance ready with
    ⟨token, after, ran, shown, alike⟩ | ⟨fault, after, index, _, _, shown, _⟩
  · rw [faces.get distance] at shown
    obtain rfl := Except.ok.inj shown
    exact ⟨after, ran, alike, alike.view.trans faces⟩
  · rw [faces.get index] at shown
    exact absurd shown (by simp)

/-- A state that faces tokens gives the first of them. -/
theorem advance_faces {state : State} {tokens : Stream' Token} (ready : state.Ready)
    (faces : state.Faces tokens) :
    ∃ after, runOn advance state = (.ok tokens.head, after) ∧
      state.Consumes tokens.head after ∧ after.Faces tokens.tail := by
  rcases advance_outcome ready with ⟨token, after, ran, consumes⟩ | ⟨fault, after, _, shown, _⟩
  · obtain ⟨rfl, rest⟩ := consumes.faces faces
    exact ⟨after, ran, consumes, rest⟩
  · have first : state.view.head = .ok tokens.head := faces.get 0
    rw [first] at shown
    exact absurd shown (by simp)

/-- The first token of marks and of what follows them has the kind they begin with. -/
theorem begins_head {tokens : List Token} {marks : List Mark} {next : Token.Kind → Prop}
    {ahead : Stream' Token} (spelled : Spells tokens marks) (follows : next ahead.head.kind) :
    Begins marks next (tokens ++ₛ ahead).head.kind := by
  rcases marks with _ | ⟨mark, marks⟩
  · obtain rfl := spells_nil_iff.mp spelled
    exact follows
  · obtain ⟨token, rest, rfl, same, _⟩ := spells_cons_iff.mp spelled
    exact congrArg Lexeme.kind same

/-- A construct begins like its content. -/
theorem begins_raised_iff {marks : List Mark} {next : Token.Kind → Prop} {kind : Token.Kind} :
    Begins (raised marks) next kind ↔ Begins marks next kind := by
  cases marks <;> rfl

namespace Reads

variable {α β : Type} {depth : Nat} {marks front back : List Mark} {mark : Mark}
  {next : Token.Kind → Prop} {good : α → Prop} {rules : List Rule} {parser : Parse α}

/-- A value is given without reading. -/
theorem pure {value : α} (holds : good value) :
    Reads depth (Pure.pure value : Parse α) [] next good [] := by
  intro state tokens ahead ready placed _ faces spelled _
  obtain rfl := spells_nil_iff.mp spelled
  rw [overflow_nil]
  exact ⟨value, state, rfl, holds, ready, rfl, faces, rfl⟩

/-- Parsers in a row read lists of marks in a row. The second list shows the first
parser what follows its own. -/
theorem bind {between : Token.Kind → Prop} {middle : β → Prop} {first : Parse β}
    {second : β → Parse α} {early late : List Rule}
    (reads : Reads depth first front between middle early)
    (then_reads : ∀ value, middle value → Reads depth (second value) back next good late)
    (joined : ∀ kind, Begins back next kind → between kind) :
    Reads depth (first >>= second) (front ++ back) next good (early ++ late) := by
  intro state tokens ahead ready placed room faces spelled follows
  obtain ⟨opening, closing, rfl, opened, closed⟩ := spells_append_iff.mp spelled
  rw [Stream'.append_append_stream] at faces
  have inner := reads state opening (closing ++ₛ ahead) ready placed room faces opened
    (joined _ (begins_head closed follows))
  rw [overflow_append opened, runOn_bind]
  cases early_overflow : overflow depth opening front with
  | some token =>
    rw [early_overflow] at inner
    obtain ⟨after, ran⟩ := inner
    rw [ran]
    exact ⟨after, rfl⟩
  | none =>
    rw [early_overflow] at inner
    obtain ⟨value, after, ran, fine, reached⟩ := inner
    have outer := then_reads value fine after closing ahead reached.ready
      (reached.depth.trans placed) room reached.faces closed follows
    rw [ran, Option.none_or]
    cases late_overflow : overflow depth closing back with
    | some token =>
      rw [late_overflow] at outer
      exact outer
    | none =>
      rw [late_overflow] at outer
      obtain ⟨result, last, ran, holds, again⟩ := outer
      refine ⟨result, last, ran, holds, again.ready, again.depth.trans reached.depth,
        again.faces, ?_⟩
      rw [again.log, reached.log, List.reverse_append, List.append_assoc]

/-- A parser that reads nothing more does not look at more. -/
theorem bindLast {between : Token.Kind → Prop} {middle : β → Prop} {first : Parse β}
    {second : β → Parse α} {early late : List Rule}
    (reads : Reads depth first marks between middle early)
    (then_reads : ∀ value, middle value → Reads depth (second value) [] next good late)
    (joined : ∀ kind, next kind → between kind) :
    Reads depth (first >>= second) marks next good (early ++ late) := by
  have both : Reads depth (first >>= second) (marks ++ []) next good (early ++ late) :=
    reads.bind then_reads joined
  rwa [List.append_nil] at both

/-- A function applied to the value changes nothing in what is read. -/
theorem map {between : Token.Kind → Prop} {first : Parse β} {value : β}
    (reads : Reads depth first marks between (· = value) rules) (function : β → α)
    (joined : ∀ kind, next kind → between kind) :
    Reads depth (first >>= fun result => Pure.pure (function result)) marks next
      (· = function value) rules := by
  have both : Reads depth (first >>= fun result => Pure.pure (function result)) marks next
      (· = function value) (rules ++ []) :=
    reads.bindLast (fun _ same => pure (congrArg function same)) joined
  rwa [List.append_nil] at both

/-- A step that reads nothing and always succeeds can be taken at once. -/
theorem step {first : Parse β} {second : β → Parse α} {late : List Rule} (early : List Rule)
    (middle : β → Prop)
    (moves : ∀ state tokens, state.Ready → state.Faces tokens →
      Begins marks next tokens.head.kind → ∃ value after,
        runOn first state = (.ok value, after) ∧ middle value ∧
          state.Reaches early tokens after)
    (reads : ∀ value, middle value → Reads depth (second value) marks next good late) :
    Reads depth (first >>= second) marks next good (early ++ late) := by
  intro state tokens ahead ready placed room faces spelled follows
  obtain ⟨value, middle_state, ran, fine, reached⟩ := moves state _ ready faces
    (begins_head spelled follows)
  have inner := reads value fine middle_state tokens ahead reached.ready
    (reached.depth.trans placed) room reached.faces spelled follows
  rw [runOn_bind, ran]
  cases overflowed : overflow depth tokens marks with
  | some token =>
    rw [overflowed] at inner
    exact inner
  | none =>
    rw [overflowed] at inner
    obtain ⟨result, last, ran, holds, again⟩ := inner
    refine ⟨result, last, ran, holds, again.ready, again.depth.trans reached.depth,
      again.faces, ?_⟩
    rw [again.log, reached.log, List.reverse_append, List.append_assoc]

/-- Looking at the kind of the token ahead shows with what the marks begin. -/
theorem currentKind {second : Token.Kind → Parse α}
    (reads : ∀ kind, Begins marks next kind → Reads depth (second kind) marks next good rules) :
    Reads depth (Parse.currentKind >>= second) marks next good rules := by
  refine step [] (Begins marks next) ?_ reads
  intro state tokens ready faces begun
  obtain ⟨after, ran, alike, again⟩ := peek_faces 0 ready faces
  refine ⟨tokens.head.kind, after, ?_, begun, alike.ready, alike.depth, again, alike.log⟩
  simp only [Parse.currentKind, current, runOn_bind, ran, runOn_pure]

/-- The tables of a state are the standard ones. -/
theorem tables {second : State → Parse α}
    (reads : ∀ state : State, state.tables = .standard →
      Reads depth (second state) marks next good rules) :
    Reads depth (get >>= second) marks next good rules := by
  refine step [] (fun state => state.tables = .standard) ?_ reads
  intro state tokens ready faces _
  exact ⟨state, state, rfl, ready.standard, ready, rfl, faces, rfl⟩

/-- A logged production is the first of those that are logged. -/
theorem reduce {rule : Rule} {second : Unit → Parse α}
    (reads : Reads depth (second ()) marks next good rules) :
    Reads depth (Parse.reduce rule >>= second) marks next good (rule :: rules) := by
  refine step [rule] (fun _ => True) ?_ fun _ _ => reads
  intro state tokens ready faces _
  exact ⟨(), _, rfl, trivial, ⟨ready.standard, ready.counted⟩, rfl, faces, rfl⟩

/-- Consuming reads any mark that stands outside all constructs. -/
theorem advance {second : Token → Parse α} (flat : mark.level = 0)
    (reads : ∀ token, token.lexeme = mark.toLexeme →
      Reads depth (second token) marks next good rules) :
    Reads depth (Parse.advance >>= second) (mark :: marks) next good rules := by
  have first : Reads depth Parse.advance [mark] (fun _ => True)
      (fun token => token.lexeme = mark.toLexeme) [] := by
    intro state tokens ahead ready placed room faces spelled _
    obtain ⟨token, rest, rfl, same, others⟩ := spells_cons_iff.mp spelled
    obtain rfl := spells_nil_iff.mp others
    obtain ⟨after, ran, consumes, reached⟩ := advance_faces ready faces
    rw [overflow_flat room token flat]
    exact ⟨token, after, ran, same, consumes.ready, consumes.depth, reached, consumes.log⟩
  exact first.bind reads fun _ _ => trivial

/-- A wanted token reads a mark of its kind. -/
theorem expect {kind : Token.Kind} {second : Token → Parse α} (flat : mark.level = 0)
    (same : mark.kind = kind)
    (reads : ∀ token, token.lexeme = mark.toLexeme →
      Reads depth (second token) marks next good rules) :
    Reads depth (Parse.expect kind >>= second) (mark :: marks) next good rules := by
  unfold Parse.expect
  rw [bind_assoc]
  apply currentKind
  intro found begun
  rw [if_pos (begun.trans same)]
  exact advance flat reads

/-- A token that closes a body reads a mark of its kind. -/
theorem expectBodyEnd {kind : Token.Kind} {second : Token → Parse α} (flat : mark.level = 0)
    (same : mark.kind = kind)
    (reads : ∀ token, token.lexeme = mark.toLexeme →
      Reads depth (second token) marks next good rules) :
    Reads depth (Parse.expectBodyEnd kind >>= second) (mark :: marks) next good rules := by
  unfold Parse.expectBodyEnd
  rw [bind_assoc]
  apply currentKind
  intro found begun
  rw [if_pos (begun.trans same)]
  exact advance flat reads

/-- Looking at the second token shows the second mark. -/
theorem peekSecond {first : Mark} {second : Token → Parse α}
    (reads : ∀ token, token.kind = mark.kind →
      Reads depth (second token) (first :: mark :: marks) next good rules) :
    Reads depth (peek 1 >>= second) (first :: mark :: marks) next good rules := by
  intro state tokens ahead ready placed room faces spelled follows
  obtain ⟨one, others, rfl, _, further⟩ := spells_cons_iff.mp spelled
  obtain ⟨two, rest, rfl, same, _⟩ := spells_cons_iff.mp further
  obtain ⟨after, ran, alike, again⟩ := peek_faces 1 ready faces
  have inner := reads two (congrArg Lexeme.kind same) after (one :: two :: rest) ahead
    alike.ready (alike.depth.trans placed) room again spelled follows
  have unfolded : runOn (peek 1 >>= second) state = runOn (second two) after := by
    rw [runOn_bind, ran]
    rfl
  rw [unfolded]
  cases overflowed : overflow depth (one :: two :: rest) (first :: mark :: marks) with
  | some token =>
    rw [overflowed] at inner
    exact inner
  | none =>
    rw [overflowed] at inner
    obtain ⟨value, last, ran, holds, reached⟩ := inner
    exact ⟨value, last, ran, holds, reached.ready, reached.depth.trans alike.depth,
      reached.faces, reached.log.trans (by rw [alike.log])⟩

/-- Without room every construct overflows at its first token. -/
theorem tooDeep (full : depthLimit ≤ depth) (present : marks ≠ []) :
    Reads depth (Parse.tooDeep : Parse α) (raised marks) next good rules := by
  intro state tokens ahead ready placed room faces spelled follows
  rw [spells_raised_iff] at spelled
  obtain ⟨mark, others, rfl⟩ := List.exists_cons_of_ne_nil present
  obtain ⟨token, rest, rfl, _, _⟩ := spells_cons_iff.mp spelled
  obtain ⟨after, ran, _, _⟩ := peek_faces 0 ready faces
  have above : depthLimit < depth + 1 + mark.level := by omega
  rw [overflow_raised, overflow_cons, if_pos above]
  refine ⟨after, ?_⟩
  simp only [Parse.tooDeep, current, runOn_bind, ran, runOn_throw]
  rfl

/-- A construct is read one level below its content. -/
theorem construct (reads : Reads (depth + 1) parser marks next good rules)
    (present : marks ≠ []) :
    Reads depth (do enter; let value ← parser; leave; Pure.pure value) (raised marks) next good
      rules := by
  intro state tokens ahead ready placed room faces spelled follows
  by_cases full : depthLimit ≤ depth
  · have refused : runOn enter state = runOn Parse.tooDeep state := by
      rw [runOn_enter, placed, if_pos full]
    have overflows : Reads depth (Parse.tooDeep >>= fun _ : Unit =>
        do let value ← parser; leave; Pure.pure value) (raised marks) next good (rules ++ []) :=
      (tooDeep full present).bindLast (fun _ impossible => False.elim impossible)
        (fun _ follows => follows)
    rw [List.append_nil] at overflows
    rw [runOn_bind, refused, ← runOn_bind]
    exact overflows state tokens ahead ready placed room faces spelled follows
  · have opened : runOn enter state = (.ok (), { state with depth := state.depth + 1 }) := by
      rw [runOn_enter, placed, if_neg full]
    rw [spells_raised_iff] at spelled
    rw [overflow_raised]
    have inner := reads { state with depth := state.depth + 1 } tokens ahead
      ⟨ready.standard, ready.counted⟩ (by rw [placed]) (by omega) faces spelled follows
    rw [runOn_bind, opened]
    simp only [runOn_bind]
    cases overflowed : overflow (depth + 1) tokens marks with
    | some token =>
      rw [overflowed] at inner
      obtain ⟨after, ran⟩ := inner
      rw [ran]
      exact ⟨after, rfl⟩
    | none =>
      rw [overflowed] at inner
      obtain ⟨value, after, ran, holds, reached⟩ := inner
      rw [ran]
      have closed : after.depth - 1 = state.depth := by
        rw [reached.depth]
        rfl
      exact ⟨value, { after with depth := after.depth - 1 }, rfl, holds,
        ⟨reached.ready.standard, reached.ready.counted⟩, closed, reached.faces, reached.log⟩

end Reads

end StartEnd.Parse
