import StartEnd.Proofs.Concrete.Expression
import StartEnd.Proofs.Replay.Judgement

/-!
# Replaying expressions

The parser of expressions leaves one entry, in the layer that its place needs. The loop
over operators keeps an entry on the stack for what has been parsed so far. The layer of
that entry is never above the one that the next operator needs: an operator that binds
more tightly would have become a part of the right operand.
-/

namespace StartEnd

/-- The entry of an expression in a layer of the grammar. -/
def Replay.Entry.ofLayer : Parse.Layer → Expr → Replay.Entry
  | .factor, expr => .phrase .factor expr
  | .term, expr => .phrase .term expr
  | .expr, expr => .phrase .expr expr

namespace Parse

open Replay

/-- The number of steps from the factors up to a layer. -/
def Layer.height : Layer → Nat
  | .factor => 0
  | .term => 1
  | .expr => 2

/-- The next item is a token that ends an expression in the given place. -/
def Settled (place : BindingPower) (view : Stream' Item) : Prop :=
  ∃ kind, Shows kind view ∧ Settles place kind

/-- No operator that needs a lower layer is the next token. -/
def Mounts (layer : Layer) (view : Stream' Item) : Prop :=
  ∀ operator : Operator, Shows operator.kind view →
    layer.height ≤ (Layer.ofOperator operator.power).height

/-- A parser of expressions leaves an entry in the layer of its place. -/
def ReplaysExprs (steps : Nat) (parser : ExprParser) : Prop :=
  ∀ place, Replays steps Unknown [] (parser place)
    (fun expr stack => stack = [.ofLayer (.ofPlace place) expr]) (fun _ => Settled place)

/-- There is one kind to show. -/
theorem Shows.unique {kind other : Token.Kind} {view : Stream' Item} (first : Shows kind view)
    (second : Shows other view) : kind = other := by
  obtain ⟨token, shown, rfl⟩ := first
  obtain ⟨same, again, rfl⟩ := second
  rw [shown] at again
  rw [Except.ok.inj again]

/-- What ends the right operand of an operator needs no lower layer than the operator. -/
theorem Settled.mounts {operator : Operator} {view : Stream' Item}
    (settled : Settled operator.rightPlace view) : Mounts (.ofOperator operator.power) view := by
  intro following shown
  obtain ⟨kind, isNext, settles⟩ := settled
  obtain rfl := isNext.unique shown
  revert settles
  cases operator <;> cases following <;> decide

variable {α : Type} {steps : Nat} {fact : Stream' Item → Prop}
  {shape : α → List Entry → Prop} {ahead : α → Stream' Item → Prop} {inner : ExprParser}

/-- Steps between layers carry an entry up. -/
theorem Replays.promote {low high : Layer} {expr : Expr} {second : Unit → Parse α}
    (upwards : low.height ≤ high.height)
    (rest : Replays steps fact [.ofLayer high expr] (second ()) shape ahead) :
    Replays steps fact [.ofLayer low expr] (Parse.promote low high >>= second) shape ahead := by
  cases low <;> cases high
  case factor.factor => exact rest
  case factor.term => exact Replays.reduceAll rfl rfl rest
  case factor.expr =>
    simp only [Parse.promote, bind_assoc]
    exact Replays.reduceAll rfl rfl (Replays.reduceAll rfl rfl rest)
  case term.term => exact rest
  case term.expr => exact Replays.reduceAll rfl rfl rest
  case expr.expr => exact rest
  all_goals exact absurd upwards (by decide)

/-- The leaf that the tables give for the next token leaves the entry of an operand. -/
theorem leafBy_replays (replays : ReplaysExprs steps inner) {kind : Token.Kind}
    {handler : LeafHandler} (found : Tables.standard.leaf kind = some handler) :
    Replays steps (Shows kind) [] (leafBy inner handler)
      (fun expr stack => stack = [.phrase .exp expr]) (fun _ => Unknown) := by
  have cases : (kind = .number ∨ kind = .identifier) ∧ handler = .primary ∨
      handler = .grouping := by
    revert found
    cases kind <;> cases handler <;> decide
  rcases cases with ⟨isLeaf, rfl⟩ | rfl
  · rcases isLeaf with rfl | rfl
    all_goals
      apply Replays.advance (fun _ shown => shown) (by decide)
      intro token same
      simp only [same]
      apply Replays.reduceAll (by simp [handle, Rule.production, same]) rfl
      apply Replays.reduceAll rfl rfl
      exact Replays.pure rfl fun _ _ => trivial
  · apply Replays.expect (by decide)
    intro opening opens
    apply Replays.call (replays .lowest)
    rintro expr _ rfl
    apply Replays.expect (by decide)
    intro closing closes
    refine Replays.reduceAll ?_ rfl (Replays.pure rfl fun _ _ => trivial)
    simp only [List.map_append, List.map_cons, List.map_nil, Entry.symbol_terminal, opens, closes]
    rfl

/-- An operator and its right operand make one entry of the layer of the operator. -/
theorem operation_replays {count : Nat} (replays : ReplaysExprs steps inner)
    (bound : count ≤ steps) (operator : Operator) (left : Expr) {second : Expr → Parse α}
    (rest : ∀ right, Replays count (Mounts (.ofOperator operator.power))
      [.ofLayer (.ofOperator operator.power) (.binary left operator right)]
      (second (.binary left operator right)) shape ahead) :
    Replays (count + 1) (Shows operator.kind) [.ofLayer (.ofOperator operator.power) left]
      (operationBy inner left operator.power (handlerOf operator) >>= second) shape ahead := by
  have operand : Replays count Unknown [] (inner operator.rightPlace)
      (fun expr stack => stack = [.ofLayer (.ofPlace operator.rightPlace) expr])
      (fun _ => Settled operator.rightPlace) :=
    (replays operator.rightPlace).weaken bound fun _ _ => trivial
  have completed (token : Token) (same : token.kind = operator.kind) :
      Replays count Unknown
        ([.ofLayer (.ofOperator operator.power) left] ++ [.terminal token])
        (do
          let right ← inner operator.rightPlace
          reduce (operatorRule operator)
          second (.binary left operator right)) shape ahead := by
    apply operand.call
    rintro right _ rfl
    have goes_on : Replays count (Settled operator.rightPlace)
        [.ofLayer (.ofOperator operator.power) (.binary left operator right)]
        (second (.binary left operator right)) shape ahead :=
      (rest right).weaken (Nat.le_refl _) fun _ settled => settled.mounts
    cases operator
    all_goals
      refine Replays.reduceAll ?_ rfl goes_on
      simp only [List.map_append, List.map_cons, List.map_nil, Entry.symbol_terminal, same]
      rfl
  by_cases power : operator = .pow
  · subst power
    simp only [handlerOf, operationBy, exponent, bind_assoc, pure_bind]
    exact Replays.expectFewer (by decide) completed
  · have plain : handlerOf operator = .binary := by
      cases operator <;> first | rfl | exact absurd rfl power
    have place : operator.power = operator.rightPlace := by
      cases operator <;> first | rfl | exact absurd rfl power
    rw [plain]
    simp only [operationBy, binary, bind_assoc]
    refine Replays.advanceFewer (fun _ shown => shown) ?_ fun token same => ?_
    · cases operator <;> decide
    have found : Operator.ofKind? token.kind = some operator :=
      (Operator.ofKind?_eq_some_iff _ _).mpr same
    simp only [found, bind_assoc, pure_bind]
    rw [place] at completed ⊢
    exact completed token same

/-- The loop over operators leaves an entry in the layer of its place. The induction is
over the rounds, of which there are enough for the items ahead. -/
theorem operators_replays (replays : ReplaysExprs steps inner) (place : BindingPower)
    {count : Nat} (bound : count ≤ steps) (left : Expr) {layer : Layer}
    (low : layer.height ≤ (Layer.ofPlace place).height) :
    Replays count (Mounts layer) [.ofLayer layer left] (operators inner place count left layer)
      (fun expr stack => stack = [.ofLayer (.ofPlace place) expr]) (fun _ => Settled place) := by
  induction count generalizing left layer with
  | zero =>
    refine Replays.ended (Replays.promote low ?_)
    refine Replays.pure rfl fun view shown => ⟨.endOfInput, shown, ?_⟩
    cases place <;> decide
  | succ count inductionHypothesis =>
    unfold operators
    apply Replays.currentKind
    intro kind
    apply Replays.tables
    intro state standard
    simp only [standard]
    cases found : (Tables.standard.power kind).filter
        (fun power => place.strength < power.strength) with
    | none =>
      apply Replays.promote low
      exact Replays.pure rfl fun view holds => ⟨kind, holds.2, found⟩
    | some power =>
      obtain ⟨isPower, above⟩ := Option.filter_eq_some_iff.mp found
      obtain ⟨operator, rfl, rfl⟩ := exists_operator_of_power isPower
      simp only [standard_operator_operator]
      have higher : (Layer.ofOperator operator.power).height ≤ (Layer.ofPlace place).height := by
        revert above
        cases operator <;> cases place <;> decide
      apply Replays.given (fun view holds => holds.1 operator holds.2)
      intro upwards
      apply Replays.promote upwards
      refine (operation_replays replays (Nat.le_of_succ_le bound) operator left
        fun right => ?_).weaken (Nat.le_refl _) fun view holds => holds.2
      exact inductionHypothesis (Nat.le_of_succ_le bound) _ higher

/-- The content of an expression leaves an entry in the layer of its place. -/
theorem exprContent_replays (replays : ReplaysExprs steps inner) (place : BindingPower) :
    Replays steps Unknown [] (exprContent steps inner place)
      (fun expr stack => stack = [.ofLayer (.ofPlace place) expr]) (fun _ => Settled place) := by
  unfold exprContent
  apply Replays.currentKind
  intro kind
  apply Replays.tables
  intro state standard
  rw [standard]
  cases found : Tables.standard.leaf kind with
  | none => exact Replays.unexpected
  | some handler =>
    apply ((leafBy_replays replays found).weaken (Nat.le_refl _) fun _ holds => holds.2).bind
    rintro left _ rfl
    apply Replays.reduceAll rfl rfl
    refine (operators_replays replays place (Nat.le_refl _) left (Nat.zero_le _)).weaken
      (Nat.le_refl _) fun _ _ operator _ => Nat.zero_le _

/-- If the parser passed in replays expressions, so does the parser built from it. -/
theorem exprBy_replays (replays : ReplaysExprs steps inner) :
    ReplaysExprs steps (exprBy steps inner) :=
  fun place => (exprContent_replays replays place).construct

/-- A comparison leaves one entry. -/
theorem condition_replays (replays : ReplaysExprs steps inner) :
    Replays steps Unknown [] (Parse.condition inner)
      (fun condition stack => stack = [.phrase .condition condition]) (fun _ => Unknown) := by
  apply Replays.call (replays .lowest)
  rintro left _ rfl
  apply Replays.currentKind
  intro kind
  cases found : Comparison.ofKind? kind with
  | none => exact Replays.unexpected
  | some operator =>
    obtain rfl := (Comparison.ofKind?_eq_some_iff _ _).mp found
    refine Replays.advance (fun _ holds => holds.2) ?_ fun token same => ?_
    · cases operator <;> decide
    have compared : Replays steps Unknown
        ([.ofLayer .expr left] ++ [.phrase .op operator])
        (do
          let right ← inner .lowest
          reduce .condition
          return Condition.mk left operator right)
        (fun condition stack => stack = [.phrase .condition condition]) (fun _ => Unknown) := by
      apply Replays.call (replays .lowest)
      rintro right _ rfl
      exact Replays.reduceAll rfl rfl (Replays.pure rfl fun _ _ => trivial)
    cases operator
    all_goals
      refine Replays.reduce [.ofLayer .expr left] [.terminal token] ?_ rfl compared
      simp only [List.map_cons, List.map_nil, Entry.symbol_terminal, same]
      rfl

end Parse

end StartEnd
