import StartEnd.Parse.Statement
import StartEnd.Proofs.Replay.Expression

/-!
# Replaying statements

Every parser of a phrase leaves the entry of its phrase. Lists of statements and of
parameters first lie on the stack item by item, and their productions then fold them
from the end. The parsers of constructs replay with any room: the induction is over the
room, and without room a construct faults before it does anything.
-/

namespace StartEnd

open Replay

/-- The entry of a statement before it is taken as a concept. -/
def Replay.Entry.ofStatement : Stmt → Entry
  | .assign assignment => .phrase .assign assignment
  | .declaration dataType assignment => .phrase .declaration (.declaration dataType assignment)
  | .branch link => .phrase .branch link
  | .repetition dataType init condition step body =>
    .phrase .repetition (.repetition dataType init condition step body)
  | .function returnType name parameters body result =>
    .phrase .functionDecl (.function returnType name parameters body result)
  | .call name arguments => .phrase .functionCall (.call name arguments)

/-- The entries of one typed name. -/
def Parameter.entries (parameter : Parameter) : List Entry :=
  [.phrase .data parameter.dataType, .phrase .id parameter.name]

/-- The entries of typed names with commas between them. -/
inductive Listed : List Parameter → List Entry → Prop where
  | last (parameter : Parameter) : Listed [parameter] parameter.entries
  | cons (first : Parameter) {comma : Token} {rest : List Parameter} {entries : List Entry}
      (separates : comma.kind = .comma) (listed : Listed rest entries) :
    Listed (first :: rest) (first.entries ++ .terminal comma :: entries)

namespace Parse

/-- A parser that begins with nothing leaves one phrase, whatever is ahead. -/
def ReplaysPhrase (steps : Nat) (head : Nonterminal) (parser : Parse head.Node) : Prop :=
  Replays steps Unknown [] parser (fun node stack => stack = [.phrase head node])
    (fun _ => Unknown)

/-- Parsers of constructs leave their phrases. -/
structure ReplaysNested (steps : Nat) (inner : Nested) : Prop where
  expr : ReplaysExprs steps inner.expr
  body : ReplaysPhrase steps .body inner.body
  branch : ReplaysPhrase steps .branch inner.branch

variable {α : Type} {steps : Nat} {fact : Stream' Item → Prop}
  {shape : α → List Entry → Prop} {ahead : α → Stream' Item → Prop} {inner : Nested}

/-- A name leaves its entry. -/
theorem identifier_replays : ReplaysPhrase steps .id identifier := by
  apply Replays.expect (by decide)
  intro token same
  apply Replays.reduceAll (by simp [handle, Rule.production, same]) rfl
  exact Replays.pure rfl fun _ _ => trivial

/-- The name of a function leaves its entry. -/
theorem functionName_replays : ReplaysPhrase steps .name functionName := by
  apply Replays.call identifier_replays
  rintro name _ rfl
  exact Replays.reduceAll rfl rfl (Replays.pure rfl fun _ _ => trivial)

/-- A data type leaves its entry. -/
theorem dataType_replays : ReplaysPhrase steps .data dataType := by
  apply Replays.currentKind
  intro kind
  apply Replays.tables
  intro state standard
  rw [standard]
  split
  case isFalse missing => exact Replays.unexpected
  case isTrue found =>
    have named : (DataType.ofKind? kind).isSome := by
      revert found
      cases kind <;> decide
    obtain ⟨dataType, isKind⟩ := Option.isSome_iff_exists.mp named
    obtain rfl := (DataType.ofKind?_eq_some_iff _ _).mp isKind
    refine Replays.advance (fun _ holds => holds.2) ?_ fun token same => ?_
    · cases dataType <;> decide
    simp only [same, isKind]
    cases dataType
    all_goals
      refine Replays.reduceAll ?_ rfl (Replays.pure rfl fun _ _ => trivial)
      simp only [List.map_append, List.map_cons, List.map_nil, Entry.symbol_terminal, same]
      rfl

/-- An assignment leaves its entry. -/
theorem assign_replays {expr : ExprParser} (replays : ReplaysExprs steps expr) :
    ReplaysPhrase steps .assign (assign expr) := by
  apply Replays.call identifier_replays
  rintro target _ rfl
  apply Replays.expect (by decide)
  intro token same
  apply Replays.call (replays .lowest)
  rintro value _ rfl
  refine Replays.reduceAll ?_ rfl (Replays.pure rfl fun _ _ => trivial)
  simp only [List.map_append, List.map_cons, List.map_nil, Entry.symbol_terminal, same]
  rfl

/-- A typed name leaves its two entries. -/
theorem parameter_replays :
    Replays steps Unknown [] parameter (fun value stack => stack = value.entries)
      (fun _ => Unknown) := by
  apply Replays.call dataType_replays
  rintro dataType _ rfl
  apply Replays.call identifier_replays
  rintro name _ rfl
  exact Replays.pure rfl fun _ _ => trivial

/-- Typed names lie on the stack with their commas. -/
theorem parametersWithin_replays (count : Nat) :
    Replays steps Unknown [] (parametersWithin count) Listed (fun _ => Unknown) := by
  induction count with
  | zero =>
    apply Replays.call parameter_replays
    rintro first _ rfl
    exact Replays.pure (.last first) fun _ _ => trivial
  | succ count inductionHypothesis =>
    apply Replays.call parameter_replays
    rintro first _ rfl
    apply Replays.currentKind
    intro kind
    split
    case isTrue same =>
      apply Replays.advance (fun _ holds => same ▸ holds.2) (by decide)
      intro token isComma
      apply Replays.call inductionHypothesis
      intro rest entries listed
      refine Replays.pure ?_ fun _ _ => trivial
      rw [List.append_assoc]
      exact .cons first isComma listed
    case isFalse _ => exact Replays.pure (.last first) fun _ _ => trivial

/-- A production that is logged several times is logged once at the end. -/
theorem reduceTimes_succ_bind (rule : Rule) (count : Nat) (second : Parse α) :
    (reduceTimes rule (count + 1) >>= fun _ => second) =
      (reduceTimes rule count >>= fun _ => reduce rule >>= fun _ => second) := by
  induction count with
  | zero => simp only [reduceTimes, bind_assoc, pure_bind]
  | succ count inductionHypothesis =>
    calc (reduceTimes rule (count + 1 + 1) >>= fun _ => second)
        = (reduce rule >>= fun _ => reduceTimes rule (count + 1) >>= fun _ => second) :=
          bind_assoc _ _ _
      _ = (reduce rule >>= fun _ => reduceTimes rule count >>= fun _ =>
            reduce rule >>= fun _ => second) := by rw [inductionHypothesis]
      _ = (reduceTimes rule (count + 1) >>= fun _ => reduce rule >>= fun _ => second) :=
          (bind_assoc _ _ _).symm

/-- Typed names on the stack are folded into their list. The induction is over the list,
and the names before those that are folded stay below. -/
theorem Replays.foldParameters {parameters : List Parameter} {entries : List Entry}
    (listed : Listed parameters entries) (base : List Entry) {second : Parse α}
    (rest : Replays steps fact (base ++ [.phrase .parameter parameters]) second shape ahead) :
    Replays steps fact (base ++ entries)
      (Parse.reduce .parameterLast >>= fun _ =>
        reduceTimes .parameterCons (parameters.length - 1) >>= fun _ => second) shape ahead := by
  induction listed generalizing base second with
  | last parameter => exact Replays.reduce base _ rfl rfl rest
  | @cons first comma others entries separates listed inductionHypothesis =>
    obtain ⟨count, counted⟩ : ∃ count, others.length = count + 1 := by
      cases listed <;> exact ⟨_, rfl⟩
    have joined : Replays steps fact
        (base ++ (first.entries ++ [.terminal comma]) ++ [.phrase .parameter others])
        (Parse.reduce .parameterCons >>= fun _ => second) shape ahead := by
      rw [List.append_assoc]
      refine Replays.reduce base _ ?_ rfl rest
      simp only [Parameter.entries, List.map_append, List.map_cons, List.map_nil,
        Entry.symbol_terminal, separates]
      rfl
    have folded := inductionHypothesis _ joined
    rw [counted, Nat.add_sub_cancel, ← reduceTimes_succ_bind] at folded
    rw [List.length_cons, Nat.add_sub_cancel, counted]
    simpa using folded

/-- Typed names leave the entry of their list. -/
theorem parameters_replays (count : Nat) : ReplaysPhrase steps .parameter (parameters count) := by
  apply (parametersWithin_replays count).bind
  intro parameters entries listed
  apply Replays.foldParameters listed []
  exact Replays.pure rfl fun _ _ => trivial

/-- A call leaves its entry. -/
theorem call_replays :
    Replays steps Unknown [] (call inner)
      (fun statement stack => stack = [.ofStatement statement]) (fun _ => Unknown) := by
  apply Replays.call functionName_replays
  rintro name _ rfl
  apply Replays.expect (by decide)
  intro opening opens
  apply Replays.call (parameters_replays inner.steps)
  rintro arguments _ rfl
  apply Replays.expect (by decide)
  intro closing closes
  apply Replays.reduceAll (by simp [handle, Rule.production, opens, closes]) rfl
  exact Replays.pure rfl fun _ _ => trivial

/-- An assignment or a call leaves its entry. -/
theorem identifierStmt_replays (replays : ReplaysNested steps inner) :
    Replays steps Unknown [] (identifierStmt inner)
      (fun statement stack => stack = [.ofStatement statement]) (fun _ => Unknown) := by
  apply Replays.peek 1
  intro following
  split
  · apply Replays.call (assign_replays replays.expr).known
    rintro assignment _ rfl
    exact Replays.pure rfl fun _ _ => trivial
  · exact call_replays.known
  · exact Replays.throw

/-- A declaration leaves its entry. -/
theorem declaration_replays (replays : ReplaysNested steps inner) :
    Replays steps Unknown [] (declaration inner)
      (fun statement stack => stack = [.ofStatement statement]) (fun _ => Unknown) := by
  apply Replays.call dataType_replays
  rintro dataType _ rfl
  apply Replays.call (assign_replays replays.expr)
  rintro assignment _ rfl
  exact Replays.reduceAll rfl rfl (Replays.pure rfl fun _ _ => trivial)

/-- The body of an `if` leaves its entry behind the condition, with its braces dropped. -/
theorem branchBody_replays (replays : ReplaysNested steps inner) {guard : List Entry}
    (guarded : guard.map Entry.symbol = Replay.condition) :
    Replays steps Unknown guard (branchBody inner)
      (fun body stack => stack = guard ++ [.phrase .body body]) (fun _ => Unknown) := by
  apply Replays.currentKind
  intro kind
  split
  case isTrue same =>
    apply Replays.advance (fun _ holds => same ▸ holds.2) (by decide)
    intro opening opens
    apply Replays.call replays.body
    rintro body _ rfl
    apply Replays.expectBodyEnd (by decide)
    intro closing closes
    rw [List.append_assoc, List.append_assoc]
    apply Replays.unbrace guarded opens closes
    exact Replays.pure rfl fun _ _ => trivial
  case isFalse _ =>
    apply (replays.body.known.frame guard).reshape
    rintro body _ ⟨_, rfl, rfl⟩
    rfl

/-- An `if` link leaves its entry. -/
theorem branchContent_replays (replays : ReplaysNested steps inner) :
    ReplaysPhrase steps .branch (branchContent inner) := by
  apply Replays.expect (by decide)
  intro word isIf
  apply Replays.expect (by decide)
  intro opening opens
  apply Replays.call (condition_replays replays.expr)
  rintro condition _ rfl
  apply Replays.expect (by decide)
  intro closing closes
  have guarded : ([.terminal word, .terminal opening, .phrase .condition condition,
      .terminal closing] : List Entry).map Entry.symbol = Replay.condition := by
    simp only [List.map_cons, List.map_nil, Entry.symbol_terminal, isIf, opens, closes]
    rfl
  apply (branchBody_replays replays guarded).bind
  rintro body _ rfl
  apply Replays.currentKind
  intro kind
  split
  case isTrue same =>
    apply Replays.advance (fun _ holds => same ▸ holds.2) (by decide)
    intro orElse isElse
    apply Replays.call replays.branch
    rintro next _ rfl
    refine Replays.reduceAll ?_ rfl (Replays.pure rfl fun _ _ => trivial)
    simp only [List.map_append, List.map_cons, List.map_nil, Entry.symbol_terminal, isIf,
      opens, closes, isElse]
    rfl
  case isFalse _ =>
    refine Replays.reduceAll ?_ rfl (Replays.pure rfl fun _ _ => trivial)
    simp only [List.map_append, List.map_cons, List.map_nil, Entry.symbol_terminal, isIf,
      opens, closes]
    rfl

/-- The advance of a loop leaves its entry. -/
theorem step_replays (replays : ReplaysNested steps inner) :
    ReplaysPhrase steps .step (step inner) := by
  apply Replays.currentKind
  intro kind
  split
  · apply Replays.advance (fun _ holds => holds.2) (by decide)
    intro token same
    apply Replays.call identifier_replays
    rintro name _ rfl
    apply Replays.reduceAll (by simp [handle, Rule.production, same]) rfl
    exact Replays.pure rfl fun _ _ => trivial
  · apply Replays.advance (fun _ holds => holds.2) (by decide)
    intro token same
    apply Replays.call identifier_replays
    rintro name _ rfl
    apply Replays.reduceAll (by simp [handle, Rule.production, same]) rfl
    exact Replays.pure rfl fun _ _ => trivial
  · apply Replays.call (assign_replays replays.expr).known
    rintro assignment _ rfl
    exact Replays.reduceAll rfl rfl (Replays.pure rfl fun _ _ => trivial)
  · exact Replays.unexpected

/-- A loop leaves its entry. -/
theorem repetition_replays (replays : ReplaysNested steps inner) :
    Replays steps Unknown [] (repetition inner)
      (fun statement stack => stack = [.ofStatement statement]) (fun _ => Unknown) := by
  apply Replays.expect (by decide)
  intro word isRep
  apply Replays.expect (by decide)
  intro opening opens
  apply Replays.call dataType_replays
  rintro dataType _ rfl
  apply Replays.call (assign_replays replays.expr)
  rintro init _ rfl
  apply Replays.expect (by decide)
  intro first separates
  apply Replays.call (condition_replays replays.expr)
  rintro condition _ rfl
  apply Replays.expect (by decide)
  intro second separatesAgain
  apply Replays.call (step_replays replays)
  rintro step _ rfl
  apply Replays.expect (by decide)
  intro closing closes
  apply Replays.expect (by decide)
  intro brace begins
  apply Replays.call replays.body
  rintro body _ rfl
  apply Replays.expectBodyEnd (by decide)
  intro last ends
  refine Replays.reduceAll ?_ rfl (Replays.pure rfl fun _ _ => trivial)
  simp only [List.map_append, List.map_cons, List.map_nil, Entry.symbol_terminal, isRep,
    opens, separates, separatesAgain, closes, begins, ends]
  rfl

/-- A function leaves its entry. -/
theorem function_replays (replays : ReplaysNested steps inner) :
    Replays steps Unknown [] (function inner)
      (fun statement stack => stack = [.ofStatement statement]) (fun _ => Unknown) := by
  apply Replays.expect (by decide)
  intro word isFunc
  apply Replays.call dataType_replays
  rintro returnType _ rfl
  apply Replays.reduce [.terminal word] [.phrase .data returnType] rfl rfl
  apply Replays.call functionName_replays
  rintro name _ rfl
  apply Replays.expect (by decide)
  intro opening opens
  apply Replays.call (parameters_replays inner.steps)
  rintro parameters _ rfl
  apply Replays.expect (by decide)
  intro closing closes
  apply Replays.expect (by decide)
  intro brace begins
  apply Replays.call replays.body
  rintro body _ rfl
  apply Replays.expectBodyEnd (by decide)
  intro returns isRet
  apply Replays.call identifier_replays
  rintro result _ rfl
  apply Replays.expect (by decide)
  intro last ends
  refine Replays.reduceAll ?_ rfl (Replays.pure rfl fun _ _ => trivial)
  simp only [List.map_append, List.map_cons, List.map_nil, Entry.symbol_terminal, isFunc,
    opens, closes, begins, isRet, ends]
  rfl

/-- Every handler of a statement leaves the entry of the statement. -/
theorem statementBy_replays (replays : ReplaysNested steps inner) (handler : StatementHandler) :
    Replays steps Unknown [] (statementBy inner handler)
      (fun statement stack => stack = [.ofStatement statement]) (fun _ => Unknown) := by
  cases handler with
  | identifier => exact identifierStmt_replays replays
  | declaration => exact declaration_replays replays
  | branch =>
    apply Replays.call replays.branch
    rintro link _ rfl
    exact Replays.pure rfl fun _ _ => trivial
  | repetition => exact repetition_replays replays
  | function => exact function_replays replays

/-- A statement leaves the entry of a concept. -/
theorem statement_replays (replays : ReplaysNested steps inner) :
    ReplaysPhrase steps .concept (statement inner) := by
  apply Replays.currentKind
  intro kind
  apply Replays.tables
  intro state standard
  split
  · exact Replays.unexpected
  · apply Replays.call (statementBy_replays replays _).known
    rintro statement _ rfl
    cases statement
    all_goals exact Replays.reduceAll rfl rfl (Replays.pure rfl fun _ _ => trivial)

/-- Statements lie on the stack one after another. -/
theorem moreStatements_replays (replays : ReplaysNested steps inner) (count : Nat) :
    Replays steps Unknown [] (moreStatements inner count)
      (fun statements stack => stack = statements.map (Entry.phrase .concept))
      (fun _ => Unknown) := by
  induction count with
  | zero => exact Replays.pure rfl fun _ _ => trivial
  | succ count inductionHypothesis =>
    unfold moreStatements startsStatement
    rw [bind_assoc]
    apply Replays.currentKind
    intro kind
    rw [bind_assoc]
    apply Replays.tables
    intro state standard
    rw [pure_bind]
    split
    · apply Replays.call (statement_replays replays).known
      rintro first _ rfl
      apply Replays.call inductionHypothesis
      rintro rest _ rfl
      exact Replays.pure rfl fun _ _ => trivial
    · exact Replays.pure rfl fun _ _ => trivial

/-- Statements on the stack are folded into their block. The induction is over the
statements, and those before the folded ones stay below. -/
theorem Replays.foldStatements (first : Stmt) (others : List Stmt) (base : List Entry)
    {second : Parse α}
    (rest : Replays steps fact (base ++ [.phrase .body (Block.ofList (first :: others))]) second
      shape ahead) :
    Replays steps fact (base ++ (first :: others).map (Entry.phrase .concept))
      (Parse.reduce .bodySingle >>= fun _ =>
        reduceTimes .bodyCons others.length >>= fun _ => second) shape ahead := by
  induction others generalizing first base second with
  | nil => exact Replays.reduce base _ rfl rfl rest
  | cons next others inductionHypothesis =>
    have joined : Replays steps fact
        (base ++ [.phrase .concept first] ++
          [.phrase .body (Block.ofList (next :: others))])
        (Parse.reduce .bodyCons >>= fun _ => second) shape ahead := by
      rw [List.append_assoc]
      exact Replays.reduce base _ rfl rfl rest
    have folded := inductionHypothesis next _ joined
    rw [← reduceTimes_succ_bind, List.append_assoc] at folded
    exact folded

/-- The content of a body leaves its entry. -/
theorem bodyContent_replays (replays : ReplaysNested steps inner) :
    ReplaysPhrase steps .body (bodyContent inner) := by
  apply Replays.call (statement_replays replays)
  rintro first _ rfl
  apply Replays.call (moreStatements_replays replays inner.steps)
  rintro rest _ rfl
  apply Replays.foldStatements first rest []
  exact Replays.pure rfl fun _ _ => trivial

/-- The parsers of constructs replay, whatever room they have. -/
theorem within_replays (steps room : Nat) : ReplaysNested steps (Nested.within steps room) := by
  induction room with
  | zero => exact ⟨fun _ => Replays.tooDeep, Replays.tooDeep, Replays.tooDeep⟩
  | succ room inductionHypothesis =>
    exact ⟨exprBy_replays inductionHypothesis.expr,
      (bodyContent_replays inductionHypothesis).construct,
      (branchContent_replays inductionHypothesis).construct⟩

end Parse

end StartEnd
