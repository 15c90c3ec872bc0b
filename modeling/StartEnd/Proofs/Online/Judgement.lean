import StartEnd.Proofs.Parse.Supply
import StartEnd.Proofs.Reading.Judgement

/-!
# Parsers that read no further than they need

A parser is online when what it does depends on nothing but the items that it has asked
for, and when a fault is met at the newest of them. The first is about two runs, over
sources that agree up to an item: as long as the first run asks for no further one, the
second does the same. The second is about one run, whose state follows its source: the
tokens that were consumed are the front of the source, none of them an ending, and at most
one token was looked at beyond them.

Online parsers compose, and each rule here takes one step of a parser. A fact tells the
kind of the next token where it is known.
-/

namespace StartEnd.Parse

/-- A fault that a parser finds at a token: another kind was needed there, or too many
constructs are open. -/
def PlacedAt (fault : Fault) (token : Token) : Prop :=
  fault = Fault.unexpected token fault.cause.expected ∨ fault = tooDeepAt token

/-- A fault is met at an item: it is found at the token, or it is the item. -/
def MetAt (fault : Fault) : Item → Prop
  | .ok token => PlacedAt fault token
  | .error met => fault = met

/-- The fault of an unexpected token is found there. -/
theorem placedAt_unexpected (token : Token) (expected : List Token.Kind) :
    PlacedAt (Fault.unexpected token expected) token :=
  .inl (by rw [Fault.expected_unexpected])

namespace State

/-- Two states of the language that differ at most in the items from a given one on. -/
structure Shares (count : Nat) (left right : State) : Prop where
  standard : left.tables = .standard
  tables : right.tables = left.tables
  lookahead : right.lookahead = left.lookahead
  log : right.log = left.log
  depth : right.depth = left.depth
  pulled : right.pulled = left.pulled
  widest : right.widest = left.widest
  supply : ∀ index, left.pulled + index < count →
    right.supply.get index = left.supply.get index

/-- The first items of a source are tokens, and none of them is an ending. -/
def Plain (source : Stream' Item) (count : Nat) : Prop :=
  ∀ index < count, ∃ token, source.get index = .ok token ∧ token.kind ≠ .endOfInput

/-- A state that has consumed the front of a source, and looked at one token more at most. -/
structure Follows (source : Stream' Item) (state : State) : Prop where
  standard : state.tables = .standard
  counted : state.lookahead.length ≤ state.pulled
  view : state.view = source.drop state.consumed
  plain : Plain source state.consumed
  looked : state.lookahead.length ≤ 1
  widest : state.widest ≤ 2

/-- A fault is met at the newest item of a source. -/
def StopsBy (source : Stream' Item) (fault : Fault) (after : State) : Prop :=
  after.widest ≤ 2 ∧ ∃ index, after.pulled = index + 1 ∧ Plain source index ∧
    MetAt fault (source.get index)

end State

/-- What a parser does depends on nothing but the items that it asks for. -/
structure Local {α : Type} (parser : Parse α) : Prop where
  grows : ∀ state : State, state.tables = .standard →
    state.pulled ≤ (runOn parser state).2.pulled ∧ (runOn parser state).2.tables = .standard
  repeats : ∀ (count : Nat) (left right : State), left.Shares count right →
    (runOn parser left).2.pulled ≤ count →
    ∃ after, runOn parser right = ((runOn parser left).1, after) ∧
      (runOn parser left).2.Shares count after

namespace Local

variable {α β : Type}

/-- A step that changes alike what is alike, and asks for nothing, is local. -/
theorem quiet {parser : Parse α} (result : Except Fault α) (change : State → State)
    (ran : ∀ state, runOn parser state = (result, change state))
    (pulled : ∀ state, (change state).pulled = state.pulled)
    (kept : ∀ count left right, left.Shares count right →
      (change left).Shares count (change right)) : Local parser where
  grows state standard := by
    rw [ran, pulled]
    have shares : state.Shares 0 state := ⟨standard, rfl, rfl, rfl, rfl, rfl, rfl, fun _ _ => rfl⟩
    exact ⟨Nat.le_refl _, (kept 0 state state shares).standard⟩
  repeats count left right shares _ := by
    rw [ran, ran]
    exact ⟨change right, rfl, kept count left right shares⟩

/-- A value is given alike. -/
theorem pure (value : α) : Local (Pure.pure value : Parse α) :=
  quiet (.ok value) id (fun _ => rfl) (fun _ => rfl) fun _ _ _ shares => shares

/-- A fault is given alike. -/
theorem throw (fault : Fault) : Local (MonadExcept.throw fault : Parse α) :=
  quiet (.error fault) id (fun _ => rfl) (fun _ => rfl) fun _ _ _ shares => shares

/-- A logged production changes nothing else. -/
theorem reduce (rule : Rule) : Local (Parse.reduce rule) :=
  quiet (.ok ()) (fun state => { state with log := rule :: state.log }) (fun _ => rfl)
    (fun _ => rfl) fun _ _ _ shares => { shares with log := congrArg (rule :: ·) shares.log }

/-- A construct that is closed changes nothing else. -/
theorem leave : Local leave :=
  quiet (.ok ()) (fun state => { state with depth := state.depth - 1 }) (fun _ => rfl)
    (fun _ => rfl) fun _ _ _ shares => { shares with depth := congrArg (· - 1) shares.depth }

/-- A construct that is opened changes nothing else. -/
theorem deepen : Local (modify fun state => { state with depth := state.depth + 1 } : Parse Unit) :=
  quiet (.ok ()) (fun state => { state with depth := state.depth + 1 }) (fun _ => rfl)
    (fun _ => rfl) fun _ _ _ shares => { shares with depth := congrArg (· + 1) shares.depth }

/-- Local parsers in a row are local. -/
theorem bind {first : Parse β} {second : β → Parse α} (front : Local first)
    (back : ∀ value, Local (second value)) : Local (first >>= second) where
  grows state standard := by
    obtain ⟨grown, still⟩ := front.grows state standard
    rw [runOn_bind]
    rcases ran : runOn first state with ⟨fault | value, between⟩
    · rw [ran] at grown still
      exact ⟨grown, still⟩
    · rw [ran] at grown still
      obtain ⟨further, standard⟩ := (back value).grows between still
      exact ⟨Nat.le_trans grown further, standard⟩
  repeats count left right shares few := by
    have grown := front.grows left shares.standard
    have repeated := front.repeats count left right shares
    rw [runOn_bind] at few
    rw [runOn_bind first second right, runOn_bind first second left]
    rcases ran : runOn first left with ⟨fault | value, between⟩
    · simp only [ran] at few repeated ⊢
      obtain ⟨after, same, shared⟩ := repeated few
      exact ⟨after, by rw [same], shared⟩
    · simp only [ran] at few repeated grown ⊢
      have further := ((back value).grows between grown.2).1
      obtain ⟨after, same, shared⟩ := repeated (Nat.le_trans further few)
      obtain ⟨last, again, sharedLast⟩ := (back value).repeats count between after shared few
      exact ⟨last, by rw [same]; exact again, sharedLast⟩

/-- What is read off the state is alike, but for the stream. -/
theorem get {second : State → Parse α}
    (alike : ∀ count left right, left.Shares count right → second right = second left)
    (rest : ∀ state : State, state.tables = .standard → Local (second state)) :
    Local (MonadState.get >>= second) where
  grows state standard := (rest state standard).grows state standard
  repeats count left right shares few := by
    show ∃ after, runOn (second right) right = ((runOn (second left) left).1, after) ∧ _
    rw [alike count left right shares]
    exact (rest left shares.standard).repeats count left right shares few

/-- Asking once gives the same item, if it is one of those that are alike. -/
theorem pull : Local Parse.pull where
  grows state standard := by
    rw [runOn_pull]
    exact ⟨Nat.le_succ _, standard⟩
  repeats count left right shares few := by
    rw [runOn_pull] at few
    have inside : left.pulled + 0 < count := few
    rw [runOn_pull, runOn_pull]
    have same : right.supply.head = left.supply.head := shares.supply 0 inside
    refine ⟨right.asked, by rw [same], ?_⟩
    refine ⟨shares.standard, shares.tables, shares.lookahead, shares.log, shares.depth,
      congrArg (· + 1) shares.pulled, shares.widest, fun index further => ?_⟩
    have grown : left.asked.pulled = left.pulled + 1 := rfl
    have bound : left.pulled + (index + 1) < count := by
      simp only [grown] at further
      omega
    rw [State.supply_asked, State.supply_asked]
    exact shares.supply (index + 1) bound

/-- Queueing is local. -/
theorem queue : Local Parse.queue := by
  refine pull.bind fun token => bind ?_ fun _ => pure token
  refine quiet (.ok ()) (·.keeping token) (fun _ => rfl) (fun _ => rfl)
    fun count left right shares => ?_
  refine { shares with lookahead := ?_, widest := ?_ }
  · simp only [State.keeping, shares.lookahead]
  · simp only [State.keeping, shares.lookahead, shares.widest]

/-- Queueing several tokens is local. -/
theorem queueMore (count : Nat) : Local (Parse.queueMore count) := by
  induction count with
  | zero => exact queue
  | succ count inductionHypothesis => exact queue.bind fun _ => inductionHypothesis

/-- Looking ahead is local. -/
theorem peek (distance : Nat) : Local (Parse.peek distance) := by
  refine get (fun count left right shares => ?_) fun state _ => ?_
  · simp only [shares.lookahead]
  · dsimp only
    rcases state.lookahead[distance]? with _ | token
    · exact queueMore _
    · exact pure token

/-- Consuming is local. -/
theorem advance : Local Parse.advance where
  grows state standard := by
    rw [runOn_advance]
    rcases state.lookahead with _ | ⟨token, rest⟩
    · exact ⟨Nat.le_succ _, standard⟩
    · exact ⟨Nat.le_refl _, standard⟩
  repeats count left right shares few := by
    rcases looked : left.lookahead with _ | ⟨token, rest⟩
    · have taken (state : State) (empty : state.lookahead = []) :
          runOn Parse.advance state = runOn Parse.pull state := by
        rw [runOn_advance, empty, runOn_pull]
      rw [taken left looked] at few ⊢
      rw [taken right (shares.lookahead.trans looked)]
      exact pull.repeats count left right shares few
    · rw [runOn_advance, runOn_advance, shares.lookahead, looked]
      exact ⟨_, rfl, { shares with lookahead := rfl }⟩

/-- Looking at the next kind is local. -/
theorem currentKind : Local Parse.currentKind := (peek 0).bind fun _ => pure _

/-- A fault at the next token is local. -/
theorem unexpected (expected : List Token.Kind) : Local (Parse.unexpected expected : Parse α) :=
  (peek 0).bind fun _ => throw _

/-- A fault about open constructs is local. -/
theorem tooDeep : Local (Parse.tooDeep : Parse α) := (peek 0).bind fun _ => throw _

/-- Consuming a token of a wanted kind is local. -/
theorem expect (kind : Token.Kind) : Local (Parse.expect kind) := by
  refine currentKind.bind fun found => ?_
  split
  · exact advance
  · exact unexpected _

end Local

namespace State

variable {source : Stream' Item} {state after : State} {token : Token} {fault : Fault}

/-- One more token that is no ending is at the front of a source. -/
theorem Plain.succ {count : Nat} (plain : Plain source count)
    (next : source.get count = .ok token) (visible : token.kind ≠ .endOfInput) :
    Plain source (count + 1) := by
  intro index inside
  rcases Nat.lt_succ_iff_lt_or_eq.mp inside with earlier | rfl
  · exact plain index earlier
  · exact ⟨token, next, visible⟩

/-- Asking gives the items of the source one after another. -/
theorem Follows.supply_eq (follows : state.Follows source) :
    state.supply = source.drop state.pulled := by
  have behind : state.view.drop state.lookahead.length = state.supply := by
    rw [view_eq]
    simpa using Stream'.drop_append_stream (state.lookahead.map (Except.ok : Token → Item))
      state.supply
  have whole : state.consumed + state.lookahead.length = state.pulled :=
    Nat.sub_add_cancel follows.counted
  rw [← behind, follows.view, Stream'.drop_drop, whole]

/-- The item that is asked for next. -/
theorem Follows.supply_head (follows : state.Follows source) :
    state.supply.head = source.get state.pulled := by
  rw [follows.supply_eq, Stream'.head_drop]

/-- The token that was looked at is the next one of the source. -/
theorem Follows.next_of_lookahead {rest : List Token} (follows : state.Follows source)
    (looked : state.lookahead = token :: rest) : source.get state.consumed = .ok token := by
  have shown : state.view.get 0 = .ok token := view_get_of_lookahead (by rw [looked]; rfl)
  rw [← shown, follows.view]
  exact (Stream'.head_drop source state.consumed).symm

/-- A token that was looked at is the newest one. -/
theorem Follows.newest (follows : state.Follows source) (looked : state.lookahead = [token]) :
    state.pulled = state.consumed + 1 := by
  have counted : 1 ≤ state.pulled := by simpa [looked] using follows.counted
  rw [consumed, looked, List.length_singleton]
  omega

/-- Nothing was looked at, or the next token of the source. -/
theorem Follows.cases (follows : state.Follows source) :
    state.lookahead = [] ∧ state.pulled = state.consumed ∨
    ∃ token, state.lookahead = [token] ∧ source.get state.consumed = .ok token := by
  rcases looked : state.lookahead with _ | ⟨token, rest⟩
  · exact .inl ⟨rfl, by simp [consumed, looked]⟩
  · obtain rfl : rest = [] := by
      have few := follows.looked
      rw [looked] at few
      simpa using few
    exact .inr ⟨token, rfl, follows.next_of_lookahead looked⟩

/-- A state follows its source whatever is logged or open. -/
theorem Follows.silent (follows : state.Follows source) (log : List Rule) (depth : Nat) :
    { state with log := log, depth := depth : State }.Follows source :=
  ⟨follows.standard, follows.counted, follows.view, follows.plain, follows.looked, follows.widest⟩

/-- A fault that is found at the newest token stops a parse there. -/
theorem StopsBy.of_token {index : Nat} (widest : after.widest ≤ 2)
    (newest : after.pulled = index + 1) (plain : Plain source index)
    (given : source.get index = .ok token) (placed : PlacedAt fault token) :
    after.StopsBy source fault := by
  refine ⟨widest, index, newest, plain, ?_⟩
  rw [given]
  exact placed

/-- A fault of the source stops a parse as soon as it is asked for. -/
theorem StopsBy.of_fault {index : Nat} (widest : after.widest ≤ 2)
    (newest : after.pulled = index + 1) (plain : Plain source index)
    (given : source.get index = .error fault) : after.StopsBy source fault := by
  refine ⟨widest, index, newest, plain, ?_⟩
  rw [given]
  rfl

end State

variable {α β : Type} {source : Stream' Item} {state : State}

open State

/-- Looking at the next token leaves it as the only one that was looked at. -/
theorem current_follows (follows : state.Follows source) :
    (∃ token after, runOn current state = (.ok token, after) ∧
      source.get state.consumed = .ok token ∧ after.Follows source ∧
      after.consumed = state.consumed ∧ after.lookahead = [token]) ∨
    (∃ fault after, runOn current state = (.error fault, after) ∧ after.StopsBy source fault) := by
  unfold current
  rw [runOn_peek]
  rcases follows.cases with ⟨looked, unlooked⟩ | ⟨token, looked, next⟩
  · rw [looked]
    simp only [List.getElem?_nil, List.length_nil, Nat.sub_zero, queueMore, runOn_queue]
    have next : source.get state.consumed = state.supply.head := by
      rw [follows.supply_head, unlooked]
    rcases given : state.supply.head with fault | token
    · refine .inr ⟨fault, state.asked, rfl, ?_⟩
      exact .of_fault follows.widest (congrArg (· + 1) unlooked) follows.plain (next.trans given)
    · have kept : (state.asked.keeping token).lookahead = [token] := by
        simp [keeping, asked, looked]
      have still : (state.asked.keeping token).consumed = state.consumed := by
        rw [← unlooked, consumed, kept]
        rfl
      refine .inl ⟨token, _, rfl, next.trans given, ?_, still, kept⟩
      refine ⟨follows.standard, ?_, ?_, ?_, by rw [kept]; rfl, ?_⟩
      · rw [kept]
        exact Nat.succ_le_succ (Nat.zero_le _)
      · rw [view_keeping given, still, follows.view]
      · rw [still]
        exact follows.plain
      · have one : (state.asked.lookahead ++ [token]).length = 1 := congrArg List.length kept
        simp only [keeping, one]
        exact Nat.max_le.mpr ⟨follows.widest, by decide⟩
  · rw [looked]
    exact .inl ⟨token, state, rfl, next, follows, rfl, looked⟩

/-- Consuming a token that is no ending goes on with following the source. -/
theorem advance_follows (follows : state.Follows source) :
    (∃ token after, runOn advance state = (.ok token, after) ∧
      source.get state.consumed = .ok token ∧ after.pulled = state.consumed + 1 ∧
      after.widest ≤ 2 ∧ (token.kind ≠ .endOfInput → after.Follows source)) ∨
    (∃ fault after, runOn advance state = (.error fault, after) ∧ after.StopsBy source fault) := by
  rw [runOn_advance]
  rcases follows.cases with ⟨looked, unlooked⟩ | ⟨token, looked, next⟩
  · rw [looked]
    have next : source.get state.consumed = state.supply.head := by
      rw [follows.supply_head, unlooked]
    have newest : state.asked.pulled = state.consumed + 1 := congrArg (· + 1) unlooked
    dsimp only
    rcases given : state.supply.head with fault | token
    · exact .inr ⟨fault, state.asked, rfl,
        .of_fault follows.widest newest follows.plain (next.trans given)⟩
    · refine .inl ⟨token, state.asked, rfl, next.trans given, newest, follows.widest, ?_⟩
      intro visible
      have empty : state.asked.lookahead = [] := looked
      have moved : state.asked.consumed = state.consumed + 1 := by
        rw [consumed, empty, newest]
        rfl
      refine ⟨follows.standard, Nat.le_succ_of_le follows.counted, ?_, ?_, follows.looked,
        follows.widest⟩
      · have behind : state.asked.view = state.asked.supply := by
          rw [view_eq, empty]
          rfl
        rw [behind, supply_asked, follows.supply_eq, moved, ← unlooked, Stream'.tail_drop,
          Stream'.drop_succ]
      · rw [moved]
        exact follows.plain.succ (next.trans given) visible
  · rw [looked]
    have newest := follows.newest looked
    refine .inl ⟨token, _, rfl, next, newest, follows.widest, fun visible => ?_⟩
    refine ⟨follows.standard, Nat.zero_le _, ?_, ?_, Nat.zero_le _, follows.widest⟩
    · have behind : { state with lookahead := [] : State }.view = state.supply := rfl
      rw [behind, follows.supply_eq]
      rfl
    · show Plain source (state.pulled - 0)
      rw [Nat.sub_zero, newest]
      exact follows.plain.succ next visible

/-- Looking at the second token is looking at the first one before. -/
theorem runOn_peek_one (state : State) :
    runOn (peek 1) state = runOn (do let _ ← current; peek 1) state := by
  rw [runOn_bind]
  unfold current
  rcases ahead : state.lookahead with _ | ⟨token, rest⟩
  · rw [runOn_peek 0, runOn_peek 1, ahead]
    simp only [List.getElem?_nil, List.length_nil, Nat.sub_zero, queueMore, runOn_bind]
    rcases queued : runOn queue state with ⟨fault | token, between⟩
    · rfl
    · have kept : between.lookahead = [token] := by
        rw [runOn_queue] at queued
        rcases given : state.supply.head with fault | next
        · simp [given] at queued
        · obtain ⟨rfl, rfl⟩ : next = token ∧ state.asked.keeping next = between := by
            simpa [given] using queued
          simp [keeping, asked, ahead]
      simp only [runOn_peek, kept]
      rfl
  · rw [runOn_peek 0, ahead]
    rfl

/-- Where the next token is no ending, the one behind it may be looked at: behind the next
token the parse goes on following its source. -/
theorem second_follows {first : Token} (follows : state.Follows source)
    (looked : state.lookahead = [first]) (visible : first.kind ≠ .endOfInput) :
    (∃ token after, runOn (peek 1) state = (.ok token, after) ∧
      after.lookahead = [first, token] ∧
      { after with lookahead := [token] : State }.Follows source) ∨
    (∃ fault after, runOn (peek 1) state = (.error fault, after) ∧ after.StopsBy source fault) := by
  have next : source.get state.consumed = .ok first := follows.next_of_lookahead looked
  have plain : Plain source state.pulled :=
    follows.newest looked ▸ follows.plain.succ next visible
  rw [runOn_peek, looked]
  simp only [List.getElem?_cons_succ, List.getElem?_nil, List.length_cons, List.length_nil,
    Nat.zero_add, Nat.sub_self, queueMore, runOn_queue]
  rcases given : state.supply.head with fault | token
  · refine .inr ⟨fault, state.asked, rfl, .of_fault follows.widest rfl plain ?_⟩
    rw [← follows.supply_head, given]
  · have kept : (state.asked.keeping token).lookahead = [first, token] := by
      simp [keeping, asked, looked]
    refine .inl ⟨token, _, rfl, kept, follows.standard, ?_, ?_, plain, Nat.le_refl _, ?_⟩
    · exact Nat.succ_le_succ (Nat.zero_le _)
    · have whole : state.supply = Stream'.cons (.ok token) state.supply.tail := by
        rw [← given]
        exact (Stream'.eta _).symm
      have behind : { state.asked.keeping token with lookahead := [token] : State }.view =
          Stream'.cons (.ok token) state.asked.supply := rfl
      rw [behind, supply_asked, ← whole, follows.supply_eq]
      rfl
    · have two : (state.asked.lookahead ++ [token]).length = 2 := congrArg List.length kept
      simp only [keeping, two]
      exact Nat.max_le.mpr ⟨follows.widest, Nat.le_refl _⟩

/-- A token of the wanted kind that was looked at is consumed. -/
theorem runOn_expect_of_lookahead {first : Token} {rest : List Token}
    (looked : state.lookahead = first :: rest) :
    runOn (expect first.kind) state = (.ok first, { state with lookahead := rest }) := by
  unfold expect currentKind current
  simp only [runOn_bind, runOn_peek, looked, List.getElem?_cons_zero, runOn_pure, ↓reduceIte,
    runOn_advance]

/-- A parse goes on following its source, or stops at the newest item. -/
def Proceeds (source : Stream' Item) : Except Fault α × State → Prop
  | (.ok _, after) => after.Follows source
  | (.error fault, after) => after.StopsBy source fault

/-- A parser that reads no further than it needs. The fact holds of the kind of the next
token, if there is one. -/
structure Online (fact : Token.Kind → Prop) (parser : Parse α) : Prop where
  isLocal : Local parser
  proceeds : ∀ (source : Stream' Item) (state : State), state.Follows source →
    (∀ token, source.get state.consumed = .ok token → fact token.kind) →
    Proceeds source (runOn parser state)

namespace Online

variable {fact : Token.Kind → Prop} {parser : Parse α}

/-- What is online at any token is so at some. -/
theorem known (online : Online (fun _ => True) parser) : Online fact parser :=
  ⟨online.isLocal, fun source state follows _ =>
    online.proceeds source state follows fun _ _ => trivial⟩

/-- A value is given without asking for anything. -/
theorem pure (value : α) : Online fact (Pure.pure value : Parse α) :=
  ⟨.pure value, fun _ _ follows _ => follows⟩

/-- Online parsers in a row are online. -/
theorem bind {first : Parse β} {second : β → Parse α} (front : Online fact first)
    (back : ∀ value, Online (fun _ => True) (second value)) : Online fact (first >>= second) where
  isLocal := front.isLocal.bind fun value => (back value).isLocal
  proceeds source state follows holds := by
    have early := front.proceeds source state follows holds
    rw [runOn_bind]
    rcases ran : runOn first state with ⟨fault | value, between⟩
    all_goals rw [ran] at early
    · exact early
    · exact (back value).proceeds source between early fun _ _ => trivial

/-- What the tables of the language give can be put in. -/
theorem tables {second : State → Parse α} (rest : Online fact parser)
    (standard : ∀ state : State, state.tables = .standard → second state = parser) :
    Online fact (MonadState.get >>= second) where
  isLocal := by
    refine Local.get (fun count left right shares => ?_) fun state isStandard => ?_
    · rw [standard left shares.standard, standard right (shares.tables.trans shares.standard)]
    · rw [standard state isStandard]
      exact rest.isLocal
  proceeds source state follows holds := by
    rw [runOn_bind, runOn_get]
    simp only [standard state follows.standard]
    exact rest.proceeds source state follows holds

/-- Logging asks for nothing. -/
theorem reduce (rule : Rule) : Online fact (Parse.reduce rule) :=
  ⟨.reduce rule, fun _ state follows _ => follows.silent (rule :: state.log) state.depth⟩

/-- Logging several times asks for nothing. -/
theorem reduceTimes (rule : Rule) (count : Nat) :
    Online fact (Parse.reduceTimes rule count) := by
  induction count generalizing fact with
  | zero => exact pure ()
  | succ count inductionHypothesis => exact (reduce rule).bind fun _ => inductionHypothesis

/-- Steps between layers ask for nothing. -/
theorem promote (low high : Layer) : Online fact (Parse.promote low high) := by
  cases low <;> cases high
  case factor.expr => exact (reduce _).bind fun _ => reduce _
  all_goals first | exact reduce _ | exact pure _

/-- Behind a look at the next token its kind is known. -/
theorem currentKind {second : Token.Kind → Parse α}
    (rest : ∀ kind, Online (· = kind) (second kind)) :
    Online fact (Parse.currentKind >>= second) where
  isLocal := Local.currentKind.bind fun kind => (rest kind).isLocal
  proceeds source state follows _ := by
    unfold Parse.currentKind
    rw [runOn_bind, runOn_bind]
    rcases current_follows follows with
      ⟨token, after, ran, next, still, same, _⟩ | ⟨fault, after, ran, stops⟩
    · simp only [ran, runOn_pure]
      refine (rest token.kind).proceeds source after still fun found ahead => ?_
      rw [same, next] at ahead
      rw [Except.ok.inj ahead]
    · simp only [ran]
      exact stops

/-- A fault that is found at the next token stops a parse there. -/
theorem placed {refusal : Token → Fault} (at_token : ∀ token, PlacedAt (refusal token) token) :
    Online fact (do throw (refusal (← current)) : Parse α) where
  isLocal := (Local.peek 0).bind fun _ => .throw _
  proceeds source state follows _ := by
    rw [runOn_bind]
    rcases current_follows follows with
      ⟨token, after, ran, next, still, same, looked⟩ | ⟨fault, after, ran, stops⟩
    · simp only [ran, runOn_throw]
      have newest : after.pulled = state.consumed + 1 := same ▸ still.newest looked
      exact .of_token still.widest newest follows.plain next (at_token token)
    · simp only [ran]
      exact stops

/-- An unexpected token is the newest one. -/
theorem unexpected (expected : List Token.Kind) :
    Online fact (Parse.unexpected expected : Parse α) :=
  placed fun token => placedAt_unexpected token expected

/-- The token at which too many constructs are open is the newest one. -/
theorem tooDeep : Online fact (Parse.tooDeep : Parse α) := placed fun _ => .inr rfl

/-- A token of a known kind that is no ending is consumed. -/
theorem advance {kind : Token.Kind} (visible : kind ≠ .endOfInput) :
    Online (· = kind) Parse.advance where
  isLocal := .advance
  proceeds source state follows holds := by
    rcases advance_follows follows with
      ⟨token, after, ran, next, _, _, further⟩ | ⟨fault, after, ran, stops⟩
    · obtain rfl : token.kind = kind := holds token next
      rw [ran]
      exact further visible
    · rw [ran]
      exact stops

/-- A token is consumed and looked at only then: it is refused, or it is no ending. -/
theorem consume {second : Token → Parse α}
    (rest : ∀ token, token.kind ≠ .endOfInput ∧ Online (fun _ => True) (second token) ∨
      ∃ expected, second token = throw (Fault.unexpected token expected)) :
    Online fact (Parse.advance >>= second) where
  isLocal := by
    refine Local.advance.bind fun token => ?_
    rcases rest token with ⟨_, online⟩ | ⟨expected, refused⟩
    · exact online.isLocal
    · rw [refused]
      exact .throw _
  proceeds source state follows _ := by
    rw [runOn_bind]
    rcases advance_follows follows with
      ⟨token, after, ran, next, newest, few, further⟩ | ⟨fault, after, ran, stops⟩
    · simp only [ran]
      rcases rest token with ⟨visible, online⟩ | ⟨expected, refused⟩
      · exact online.proceeds source after (further visible) fun _ _ => trivial
      · rw [refused]
        exact .of_token few newest follows.plain next (placedAt_unexpected token expected)
    · simp only [ran]
      exact stops

/-- A token is consumed if it is of a kind that is wanted. -/
theorem wanted {kind : Token.Kind} (visible : kind ≠ .endOfInput) (expected : List Token.Kind) :
    Online fact (do
      if (← Parse.currentKind) = kind then Parse.advance
      else Parse.unexpected expected) := by
  refine currentKind fun found => ?_
  split
  case isTrue same => exact advance (same ▸ visible)
  case isFalse _ => exact unexpected expected

/-- A token of a wanted kind is consumed. -/
theorem expect {kind : Token.Kind} (visible : kind ≠ .endOfInput) :
    Online fact (Parse.expect kind) := wanted visible _

/-- A token that closes a body is consumed. -/
theorem expectBodyEnd {kind : Token.Kind} (visible : kind ≠ .endOfInput) :
    Online fact (Parse.expectBodyEnd kind) := wanted visible _

/-- A construct is opened, or there is no room for it. -/
theorem enter : Online fact Parse.enter where
  isLocal := by
    refine Local.get (fun count left right shares => ?_) fun state _ => ?_
    · simp only [shares.depth]
    · split
      · exact .tooDeep
      · exact .deepen
  proceeds source state follows holds := by
    rw [runOn_enter]
    split
    · exact tooDeep.proceeds source state follows holds
    · exact follows.silent state.log (state.depth + 1)

/-- A construct is online if its content is. -/
theorem construct (online : Online (fun _ => True) parser) :
    Online fact (do Parse.enter; let value ← parser; leave; Pure.pure value) := by
  refine enter.bind fun _ => online.bind fun value => bind ?_ fun _ => pure value
  exact ⟨.leave, fun _ state follows _ => follows.silent state.log (state.depth - 1)⟩

/-- The token behind the next one is looked at where the next one is known. It is refused,
or the next one is consumed before anything else is done. -/
theorem second {kind : Token.Kind} (visible : kind ≠ .endOfInput) {rest : Token → Parse α}
    (goes_on : ∀ token, (∃ expected, rest token = throw (Fault.unexpected token expected)) ∨
      ∃ behind : Token → Parse α, rest token = Parse.expect kind >>= behind ∧
        ∀ first, Online (fun _ => True) (behind first)) :
    Online (· = kind) (peek 1 >>= rest) where
  isLocal := by
    refine (Local.peek 1).bind fun token => ?_
    rcases goes_on token with ⟨expected, refused⟩ | ⟨behind, taken, online⟩
    · rw [refused]
      exact .throw _
    · rw [taken]
      exact (Local.expect kind).bind fun first => (online first).isLocal
  proceeds source state follows holds := by
    rw [runOn_bind, runOn_peek_one state, runOn_bind]
    rcases current_follows follows with
      ⟨first, between, ran, next, still, same, looked⟩ | ⟨fault, after, ran, stops⟩
    · obtain rfl : first.kind = kind := holds first next
      simp only [ran]
      rcases second_follows still looked visible with
        ⟨token, after, ran, ahead, further⟩ | ⟨fault, after, ran, stops⟩
      · simp only [ran]
        rcases goes_on token with ⟨expected, refused⟩ | ⟨behind, taken, online⟩
        · rw [refused]
          exact .of_token further.widest (further.newest rfl) further.plain
            (further.next_of_lookahead rfl) (placedAt_unexpected token expected)
        · rw [taken, runOn_bind, runOn_expect_of_lookahead ahead]
          exact (online first).proceeds source _ further fun _ _ => trivial
      · simp only [ran]
        exact stops
    · simp only [ran]
      exact stops

end Online

end StartEnd.Parse
