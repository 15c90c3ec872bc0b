import StartEnd.Proofs.Reading.Statement

/-!
# Reading programs

A program is read from a list of tokens up to the first end-of-input token, whether
that token is in the list or made behind it. The outcome is exact: if the tokens write
down a program, the parse gives its tree, or else the fault of the first token at which
too many constructs would be open.

A parse can also begin with constructs that are open already. The number of these for
which a program still fits tells how many constructs the program needs.
-/

namespace StartEnd

/-- The marks of a program, up to the end of the input. -/
def Concrete.Body.programMarks (body : Concrete.Body) : List Mark :=
  .fixed .startWord :: (raised body.content ++ [.fixed .endWord])

/-- The tokens before the first end-of-input token. -/
def beforeEnding (tokens : List Token) : List Token :=
  tokens.takeWhile fun token => token.kind ≠ .endOfInput

@[simp] theorem beforeEnding_nil : beforeEnding [] = [] := rfl

/-- Tokens none of which is an end-of-input token stand before the first one. -/
theorem beforeEnding_append {front : List Token}
    (visible : ∀ token ∈ front, token.kind ≠ .endOfInput) (back : List Token) :
    beforeEnding (front ++ back) = front ++ beforeEnding back :=
  List.takeWhile_append_of_pos fun token member => by simpa using visible token member

/-- Tokens in front of an end-of-input token are those before the first one if none of them
is one. -/
theorem beforeEnding_of_visible {tokens others : List Token} {last : Token}
    (visible : ∀ token ∈ tokens, token.kind ≠ .endOfInput) (ends : last.kind = .endOfInput) :
    beforeEnding (tokens ++ last :: others) = tokens := by
  have stops : beforeEnding (last :: others) = [] := by simp [beforeEnding, ends]
  rw [beforeEnding_append visible, stops, List.append_nil]

/-- No token before the first end-of-input token is one. -/
theorem kind_ne_of_mem_beforeEnding {tokens : List Token} {token : Token}
    (inside : token ∈ beforeEnding tokens) : token.kind ≠ .endOfInput := by
  have all : ∀ token ∈ beforeEnding tokens, decide (token.kind ≠ .endOfInput) = true :=
    List.all_eq_true.mp List.all_takeWhile
  exact of_decide_eq_true (all token inside)

/-- A list of tokens has no end-of-input token, or it goes on with one behind those before
the first one. -/
theorem beforeEnding_cases (tokens : List Token) :
    beforeEnding tokens = tokens ∨ ∃ last others, last.kind = .endOfInput ∧
      tokens = beforeEnding tokens ++ last :: others := by
  induction tokens with
  | nil => exact .inl rfl
  | cons first rest inductionHypothesis =>
    by_cases isEnding : first.kind = .endOfInput
    · refine .inr ⟨first, rest, isEnding, ?_⟩
      simp [beforeEnding, isEnding]
    · have kept : beforeEnding (first :: rest) = first :: beforeEnding rest := by
        simp [beforeEnding, isEnding]
      rw [kept]
      rcases inductionHypothesis with whole | ⟨last, others, found, split⟩
      · exact .inl (congrArg (first :: ·) whole)
      · exact .inr ⟨last, others, found, congrArg (first :: ·) split⟩

namespace Parse

/-- The state before the first item of a stream, with constructs open already. -/
def State.initialAt (opened : Nat) (stream : List Item) : State :=
  { State.initial stream with depth := opened }

/-- The program in a list of tokens, parsed with constructs open already, and the state
behind it. -/
def tokensAt (opened : Nat) (tokens : List Token) : Except Fault Program × State :=
  runOn program (.initialAt opened (tokens.map Except.ok))

/-- The program in a source text, parsed with constructs open already, and the state
behind it. -/
def sourceAt (opened : Nat) (text : String) : Except Fault Program × State :=
  runOn program (.initialAt opened (Source.items text))

/-- A parse of tokens begins without an open construct. -/
@[simp] theorem tokensAt_zero (tokens : List Token) : tokensAt 0 tokens = Parse.tokens tokens :=
  rfl

/-- A parse of a text is a parse of the tokens that reading it delivers. -/
theorem sourceAt_of_items {opened : Nat} {text : String} {tokens : List Token}
    (delivered : Source.items text = tokens.map Except.ok) :
    sourceAt opened text = tokensAt opened tokens := by
  rw [sourceAt, delivered, tokensAt]

variable {α : Type} {depth : Nat} {marks : List Mark} {next : Token.Kind → Prop}
  {good : α → Prop} {rules : List Rule}

/-- The parsers of constructs have room for the constructs that may still be opened and
for as many rounds as there are tokens. -/
theorem Reads.nested {front back : List Mark} {second : Nested → Parse α}
    (visible : ∀ mark ∈ front, mark.kind ≠ .endOfInput)
    (reads : ∀ steps, front.length ≤ steps →
      Reads depth (second (Nested.within steps (depthLimit - depth))) (front ++ back) next good
        rules) :
    Reads depth (Parse.nested >>= second) (front ++ back) next good rules := by
  intro state tokens ahead ready placed room faces spelled follows
  obtain ⟨opening, closing, rfl, opened, closed⟩ := spells_append_iff.mp spelled
  have enough : opening.length ≤ state.upcoming.length := by
    rcases List.eq_nil_or_concat opening with rfl | ⟨others, last, rfl⟩
    · exact Nat.zero_le _
    · have shown : state.view.get others.length = .ok last := by
        rw [faces.get]
        simp [Stream'.append_append_stream, Stream'.cons_append_stream]
      have seen : last.kind ≠ .endOfInput := by
        have kinds := opened.kinds
        have member : last.kind ∈ front.map (·.kind) := by
          rw [← kinds]
          simp
        obtain ⟨mark, inside, same⟩ := List.mem_map.mp member
        rw [← same]
        exact visible mark inside
      have inside : others.length < state.upcoming.length :=
        State.lt_upcoming_of_view shown seen
      rw [List.length_concat]
      exact Nat.succ_le_of_lt inside
  have pending : state.upcoming.length = state.lookahead.length + state.stream.length := by
    simp [State.upcoming]
  have ran : runOn (Parse.nested >>= second) state =
      runOn (second (Nested.within (state.upcoming.length + 1) (depthLimit - depth))) state := by
    simp only [Parse.nested, Parse.pending, runOn_bind, runOn_get, runOn_pure, placed, pending]
  rw [ran]
  exact reads _ (by rw [← opened.length_eq]; omega) state _ ahead ready placed room faces
    spelled follows

/-- A program is read up to the end of the input. -/
theorem program_reads {body : Concrete.Body} (placed : body.Placed .endWord)
    (visible : ∀ mark ∈ body.content, mark.kind ≠ .endOfInput) :
    Reads depth program (body.programMarks ++ [.fixed .endOfInput]) (fun _ => True)
      (· = ⟨body.tree⟩) (body.rules ++ [.program]) := by
  have regrouped : body.programMarks ++ [.fixed .endOfInput] = .fixed .startWord ::
      (raised body.content ++ [.fixed .endWord, .fixed .endOfInput]) := by
    simp [Concrete.Body.programMarks]
  rw [regrouped]
  refine Reads.expect rfl rfl fun _ _ => ?_
  refine Reads.nested ?_ fun steps enough => ?_
  · exact visible_raised_iff.mpr visible
  · have inner := within_reads steps (depthLimit - depth) depth rfl
    rw [length_raised] at enough
    refine (inner.body body .endWord placed enough).bind ?_ fun _ begun => begun
    rintro value rfl
    refine Reads.expectBodyEnd rfl rfl fun _ _ => ?_
    exact Reads.expect rfl rfl fun _ _ => Reads.reduce (Reads.pure rfl)

/-- Before a parse all tokens are ahead, and then endings. -/
theorem initialAt_faces_all (opened : Nat) (tokens : List Token) :
    (State.initialAt opened (tokens.map Except.ok)).Faces
      (tokens ++ₛ Stream'.const (State.initialAt opened (tokens.map Except.ok)).ending) := by
  simp [State.Faces, State.view, State.upcoming, State.initialAt, State.initial,
    Stream'.map_append_stream, Stream'.map_const]

/-- Before a parse the tokens up to the first end-of-input token are ahead, and then one
of these. -/
theorem initialAt_faces (opened : Nat) (tokens : List Token) :
    ∃ last ahead, last.kind = .endOfInput ∧
      (State.initialAt opened (tokens.map Except.ok)).Faces
        ((beforeEnding tokens ++ [last]) ++ₛ ahead) := by
  let state := State.initialAt opened (tokens.map Except.ok)
  have faces : state.Faces (tokens ++ₛ Stream'.const state.ending) :=
    initialAt_faces_all opened tokens
  rcases beforeEnding_cases tokens with whole | ⟨last, others, found, split⟩
  · refine ⟨state.ending, Stream'.const state.ending, rfl, ?_⟩
    rw [whole, Stream'.append_append_stream, Stream'.cons_append_stream,
      Stream'.nil_append_stream, ← Stream'.const_eq]
    exact faces
  · refine ⟨last, others ++ₛ Stream'.const state.ending, found, ?_⟩
    rw [← Stream'.append_append_stream, List.append_assoc, List.singleton_append, ← split]
    exact faces

/-- The outcome of a parse on tokens that write down a program. -/
theorem tokensAt_exact {opened : Nat} (room : opened ≤ depthLimit) {tokens : List Token}
    {body : Concrete.Body} (placed : body.Placed .endWord)
    (spelled : Spells (beforeEnding tokens) body.programMarks) :
    match overflow opened (beforeEnding tokens) body.programMarks with
    | none => ∃ after, tokensAt opened tokens = (.ok ⟨body.tree⟩, after) ∧
        after.reductions = body.rules ++ [.program]
    | some token => ∃ after, tokensAt opened tokens = (.error (tooDeepAt token), after) := by
  have visible : ∀ mark ∈ body.content, mark.kind ≠ .endOfInput := by
    have all := spelled.visible_iff.mp fun _ => kind_ne_of_mem_beforeEnding
    have inside := (List.forall_mem_append.mp (List.forall_mem_cons.mp all).2).1
    exact visible_raised_iff.mp inside
  obtain ⟨last, ahead, isEnding, faces⟩ := initialAt_faces opened tokens
  have ended : Spells [last] [.fixed .endOfInput] := spells_fixed isEnding rfl
  have reads : Reads opened program (body.programMarks ++ [.fixed .endOfInput]) (fun _ => True)
      (· = ⟨body.tree⟩) (body.rules ++ [.program]) := program_reads placed visible
  have whole := reads (State.initialAt opened (tokens.map Except.ok))
    (beforeEnding tokens ++ [last]) ahead ⟨rfl, Nat.le_refl _⟩ rfl room faces
    (spelled.append ended) trivial
  rw [overflow_append spelled, overflow_flat room last rfl, Option.or_none] at whole
  cases overflowed : overflow opened (beforeEnding tokens) body.programMarks with
  | some token =>
    rw [overflowed] at whole
    exact whole
  | none =>
    rw [overflowed] at whole
    obtain ⟨value, after, ran, rfl, reached⟩ := whole
    refine ⟨after, ran, ?_⟩
    have logged : after.log = (body.rules ++ [Rule.program]).reverse ++ [] := reached.log
    rw [State.reductions, logged, List.append_nil, List.reverse_reverse]

/-- A parse on tokens that write down a program gives its tree if the constructs that the
program needs may be opened, and otherwise finds too many of them. -/
theorem tokensAt_outcome {opened : Nat} (room : opened ≤ depthLimit) {tokens : List Token}
    {body : Concrete.Body} (placed : body.Placed .endWord)
    (spelled : Spells (beforeEnding tokens) body.programMarks) :
    (opened + peak body.programMarks ≤ depthLimit →
      (tokensAt opened tokens).1 = .ok ⟨body.tree⟩) ∧
    (depthLimit < opened + peak body.programMarks →
      ∃ position, (tokensAt opened tokens).1 =
        .error ⟨.nestingTooDeep depthLimit.toUInt64, position⟩) := by
  have exact := tokensAt_exact room placed spelled
  have fitting := overflow_eq_none_iff room spelled
  cases overflowed : overflow opened (beforeEnding tokens) body.programMarks with
  | none =>
    rw [overflowed] at exact
    obtain ⟨after, ran, _⟩ := exact
    have fits : opened + peak body.programMarks ≤ depthLimit := fitting.mp overflowed
    constructor
    · intro _
      exact congrArg Prod.fst ran
    · intro above
      exact absurd fits (Nat.not_le.mpr above)
  | some token =>
    rw [overflowed] at exact
    obtain ⟨after, ran⟩ := exact
    constructor
    · intro fits
      have nowhere := fitting.mpr fits
      rw [overflowed] at nowhere
      exact absurd nowhere (by simp)
    · intro _
      exact ⟨token.span.start, congrArg Prod.fst ran⟩

end Parse

end StartEnd
