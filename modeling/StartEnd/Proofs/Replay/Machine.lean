import StartEnd.Grammar.Rule
import StartEnd.Parse.Program

/-!
# Replaying productions from the bottom up

A stack holds tokens and phrases, each phrase with the node of the tree that it stands
for. A token is shifted onto the stack as it is. A production takes its body off the top
of the stack and puts its head in its place, with the node that its parts make.

Two things differ from the productions as they are listed. A power takes a factor for
its exponent, because powers group to the right. And the braces around the body of an
`if` are dropped by a step of their own, directly behind the condition.
-/

namespace StartEnd

/-- What a phrase stands for in a tree. -/
abbrev Nonterminal.Node : Nonterminal → Type
  | .program => Program
  | .body => Block
  | .concept | .repetition | .declaration | .functionDecl | .functionCall => Stmt
  | .assign => Assign
  | .id | .name => Identifier
  | .expr | .term | .factor | .exp => Expr
  | .digit => String
  | .branch => Branch
  | .condition => Condition
  | .op => Comparison
  | .data | .dataType => DataType
  | .step => Step
  | .parameter => List Parameter

namespace Replay

/-- What lies on the stack: a token, or a phrase with its node. -/
inductive Entry where
  | terminal (token : Token)
  | phrase (head : Nonterminal) (node : head.Node)

/-- The symbol of an entry. -/
def Entry.symbol : Entry → Symbol
  | .terminal token => .terminal token.kind
  | .phrase head _ => .nonterminal head

@[simp] theorem Entry.symbol_terminal (token : Token) :
    (Entry.terminal token).symbol = .terminal token.kind := rfl

@[simp] theorem Entry.symbol_phrase (head : Nonterminal) (node : head.Node) :
    (Entry.phrase head node).symbol = .nonterminal head := rfl

/-- The symbols that a production takes off the stack: its body, with a factor for the
exponent of a power. -/
def handle : Rule → List Symbol
  | .factorPow => [.nonterminal .factor, .terminal .starStar, .nonterminal .factor]
  | rule => rule.production.body

/-- The node of the head of a production, made from the entries of its body. Lists grow
at the front, and parentheses and steps between layers make no node of their own. -/
def node (rule : Rule) (entries : List Entry) : Option rule.production.head.Node :=
  match rule with
  | .program =>
    match entries with
    | [_, .phrase .body body, _] => some (Program.mk body)
    | _ => none
  | .bodySingle =>
    match entries with
    | [.phrase .concept statement] => some (Block.cons statement .nil)
    | _ => none
  | .bodyCons =>
    match entries with
    | [.phrase .concept statement, .phrase .body rest] => some (Block.cons statement rest)
    | _ => none
  | .conceptAssign =>
    match entries with
    | [.phrase .assign assignment] => some (Stmt.assign assignment)
    | _ => none
  | .conceptDeclaration =>
    match entries with
    | [.phrase .declaration statement] => some statement
    | _ => none
  | .conceptBranch =>
    match entries with
    | [.phrase .branch link] => some (Stmt.branch link)
    | _ => none
  | .conceptRepetition =>
    match entries with
    | [.phrase .repetition statement] => some statement
    | _ => none
  | .conceptFunctionDecl =>
    match entries with
    | [.phrase .functionDecl statement] => some statement
    | _ => none
  | .conceptFunctionCall =>
    match entries with
    | [.phrase .functionCall statement] => some statement
    | _ => none
  | .assign =>
    match entries with
    | [.phrase .id target, _, .phrase .expr value] => some (Assign.mk target value)
    | _ => none
  | .id =>
    match entries with
    | [.terminal token] => some (Identifier.mk token.value)
    | _ => none
  | .exprAdd =>
    match entries with
    | [.phrase .expr left, _, .phrase .term right] => some (Expr.binary left .add right)
    | _ => none
  | .exprSub =>
    match entries with
    | [.phrase .expr left, _, .phrase .term right] => some (Expr.binary left .sub right)
    | _ => none
  | .exprTerm =>
    match entries with
    | [.phrase .term term] => some term
    | _ => none
  | .termMul =>
    match entries with
    | [.phrase .term left, _, .phrase .factor right] => some (Expr.binary left .mul right)
    | _ => none
  | .termDiv =>
    match entries with
    | [.phrase .term left, _, .phrase .factor right] => some (Expr.binary left .div right)
    | _ => none
  | .termFactor =>
    match entries with
    | [.phrase .factor factor] => some factor
    | _ => none
  | .factorPow =>
    match entries with
    | [.phrase .factor left, _, .phrase .factor right] => some (Expr.binary left .pow right)
    | _ => none
  | .factorExp =>
    match entries with
    | [.phrase .exp exp] => some exp
    | _ => none
  | .expParen =>
    match entries with
    | [_, .phrase .expr expr, _] => some expr
    | _ => none
  | .expId =>
    match entries with
    | [.phrase .id name] => some (Expr.symbol name)
    | _ => none
  | .expDigit =>
    match entries with
    | [.phrase .digit digits] => some (Expr.number digits)
    | _ => none
  | .digit =>
    match entries with
    | [.terminal token] => some token.value
    | _ => none
  | .branchThen =>
    match entries with
    | [_, _, .phrase .condition condition, _, .phrase .body body] =>
      some (Branch.last condition body)
    | _ => none
  | .branchElse =>
    match entries with
    | [_, _, .phrase .condition condition, _, .phrase .body body, _, .phrase .branch next] =>
      some (Branch.orElse condition body next)
    | _ => none
  | .condition =>
    match entries with
    | [.phrase .expr left, .phrase .op operator, .phrase .expr right] =>
      some (Condition.mk left operator right)
    | _ => none
  | .opLt => some Comparison.lt
  | .opGt => some Comparison.gt
  | .opEq => some Comparison.eq
  | .opNeq => some Comparison.neq
  | .repetition =>
    match entries with
    | [_, _, .phrase .data dataType, .phrase .assign init, _, .phrase .condition condition, _,
        .phrase .step step, _, _, .phrase .body body, _] =>
      some (Stmt.repetition dataType init condition step body)
    | _ => none
  | .dataInt => some DataType.int
  | .dataString => some DataType.string
  | .dataFloat => some DataType.float
  | .stepDecrement =>
    match entries with
    | [_, .phrase .id name] => some (Step.decrement name)
    | _ => none
  | .stepIncrement =>
    match entries with
    | [_, .phrase .id name] => some (Step.increment name)
    | _ => none
  | .stepAssign =>
    match entries with
    | [.phrase .assign assignment] => some (Step.assign assignment)
    | _ => none
  | .declaration =>
    match entries with
    | [.phrase .data dataType, .phrase .assign assignment] =>
      some (Stmt.declaration dataType assignment)
    | _ => none
  | .functionDecl =>
    match entries with
    | [_, .phrase .dataType returnType, .phrase .name name, _, .phrase .parameter parameters, _,
        _, .phrase .body body, _, .phrase .id result, _] =>
      some (Stmt.function returnType name parameters body result)
    | _ => none
  | .name =>
    match entries with
    | [.phrase .id name] => some name
    | _ => none
  | .dataType =>
    match entries with
    | [.phrase .data dataType] => some dataType
    | _ => none
  | .parameterLast =>
    match entries with
    | [.phrase .data dataType, .phrase .id name] => some [Parameter.mk dataType name]
    | _ => none
  | .parameterCons =>
    match entries with
    | [.phrase .data dataType, .phrase .id name, _, .phrase .parameter rest] =>
      some (Parameter.mk dataType name :: rest)
    | _ => none
  | .functionCall =>
    match entries with
    | [.phrase .name name, _, .phrase .parameter arguments, _] =>
      some (Stmt.call name arguments)
    | _ => none

/-- What a replay does next. -/
inductive Event where
  | shift (token : Token)
  | reduce (rule : Rule)
  | unbrace

/-- The symbols in front of the body of an `if`. -/
def condition : List Symbol :=
  [.terminal .ifWord, .terminal .openParen, .nonterminal .condition, .terminal .closeParen]

/-- One step on the stack, whose top is at its end. -/
inductive Steps : List Entry → Event → List Entry → Prop where
  | shift (stack : List Entry) (token : Token) (visible : token.kind ≠ .endOfInput) :
    Steps stack (.shift token) (stack ++ [.terminal token])
  | reduce (below entries : List Entry) (rule : Rule) (made : rule.production.head.Node)
      (fits : entries.map Entry.symbol = handle rule) (built : node rule entries = some made) :
    Steps (below ++ entries) (.reduce rule) (below ++ [.phrase rule.production.head made])
  | unbrace (below guard : List Entry) (opening closing : Token) (body : Block)
      (guarded : guard.map Entry.symbol = condition) (opens : opening.kind = .openCurly)
      (closes : closing.kind = .closeCurly) :
    Steps (below ++ guard ++ [.terminal opening, .phrase .body body, .terminal closing]) .unbrace
      (below ++ guard ++ [.phrase .body body])

/-- Steps in a row. -/
inductive Runs : List Entry → List Event → List Entry → Prop where
  | done (stack : List Entry) : Runs stack [] stack
  | next {stack middle last : List Entry} {event : Event} {events : List Event}
      (step : Steps stack event middle) (rest : Runs middle events last) :
    Runs stack (event :: events) last

/-- The tokens that are shifted, in order. -/
def shifts (events : List Event) : List Token :=
  events.filterMap fun event =>
    match event with
    | .shift token => some token
    | .reduce _ | .unbrace => none

/-- The productions that are applied, in order. -/
def reductions (events : List Event) : List Rule :=
  events.filterMap fun event =>
    match event with
    | .reduce rule => some rule
    | .shift _ | .unbrace => none

@[simp] theorem shifts_append (first second : List Event) :
    shifts (first ++ second) = shifts first ++ shifts second := List.filterMap_append

@[simp] theorem reductions_append (first second : List Event) :
    reductions (first ++ second) = reductions first ++ reductions second :=
  List.filterMap_append

@[simp] theorem shifts_reduce (rule : Rule) : shifts [.reduce rule] = [] := rfl

@[simp] theorem shifts_unbrace : shifts [.unbrace] = [] := rfl

/-- Runs in a row are one run. -/
theorem Runs.append {first second third : List Entry} {early late : List Event}
    (front : Runs first early second) (back : Runs second late third) :
    Runs first (early ++ late) third := by
  induction front with
  | done stack => exact back
  | next step rest inductionHypothesis => exact .next step (inductionHypothesis back)

/-- One step is a run. -/
theorem Runs.single {stack last : List Entry} {event : Event} (step : Steps stack event last) :
    Runs stack [event] last := .next step (.done last)

end Replay

end StartEnd
