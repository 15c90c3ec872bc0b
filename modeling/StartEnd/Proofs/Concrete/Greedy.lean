import StartEnd.Proofs.Concrete.Statement

/-!
# Regrouping written statements

The grammar leaves open where the body of an `if` without braces ends, to which `if` an
`else` belongs, and how a chain of powers groups. A parse decides each of these in one
way: the body goes on as long as it can, the nearest `if` takes the `else`, and powers
group to the right. What is written in one grouping can be written in that one with the
same lexemes. A statement that follows a body goes into the body, an `else` that follows
a body goes to the last `if` inside it, and an exponent goes to the last power.
-/

namespace StartEnd

namespace Concrete

/-- The lexemes of marks, without their levels. -/
def lexemes (marks : List Mark) : List Lexeme := marks.map Mark.toLexeme

@[simp] theorem lexemes_append (front back : List Mark) :
    lexemes (front ++ back) = lexemes front ++ lexemes back := List.map_append

@[simp] theorem lexemes_cons (first : Mark) (rest : List Mark) :
    lexemes (first :: rest) = first.toLexeme :: lexemes rest := rfl

@[simp] theorem lexemes_nil : lexemes [] = [] := rfl

@[simp] theorem lexemes_raised (marks : List Mark) : lexemes (raised marks) = lexemes marks :=
  map_toLexeme_raised marks

/-- Tokens write down all marks with the same lexemes. -/
theorem spells_congr {tokens : List Token} {marks others : List Mark}
    (spelled : Spells tokens marks) (same : lexemes others = lexemes marks) :
    Spells tokens others := spelled.trans same.symm

/-- What has no operator outside its parentheses is raised to an operand as it stands. -/
theorem Expr.exists_raise_leaf {base exponent : Expr} (fits : base.Fits)
    (leaf : base.root? = none) (exponentFits : exponent.Fits)
    (held : ∀ child ∈ exponent.root?, Operator.pow.holds true child) :
    ∃ expr : Expr, expr.Fits ∧ expr.root? = some .pow ∧
      lexemes expr.content =
        lexemes (base.content ++ .fixed .starStar :: exponent.content) := by
  refine ⟨.binary base .pow exponent, ⟨fits, exponentFits, ?_, held⟩, rfl, ?_⟩
  · intro child isRoot
    rw [leaf] at isRoot
    exact absurd isRoot (by simp)
  · simp [Expr.content, Operator.kind]

/-- A chain of powers raised to an operand is a chain of powers that groups to the right.
The induction follows the exponents to the last one. -/
theorem Expr.exists_raise {power exponent : Expr} (fits : power.Fits)
    (sits : power.SitsAt .multiplicative) (exponentFits : exponent.Fits)
    (exponentSits : exponent.SitsAt .multiplicative) :
    ∃ expr : Expr, expr.Fits ∧ expr.root? = some .pow ∧
      lexemes expr.content =
        lexemes (power.content ++ .fixed .starStar :: exponent.content) := by
  have held : ∀ child ∈ exponent.root?, Operator.pow.holds true child := by
    intro child isRoot
    have above := exponentSits child isRoot
    revert above
    cases child <;> decide
  induction power with
  | number digits => exact exists_raise_leaf fits rfl exponentFits held
  | symbol name => exact exists_raise_leaf fits rfl exponentFits held
  | group inner inductionHypothesis => exact exists_raise_leaf fits rfl exponentFits held
  | binary left operator right leftHypothesis rightHypothesis =>
    obtain rfl : operator = .pow := by
      have above := sits operator rfl
      revert above
      cases operator <;> decide
    obtain ⟨leftFits, rightFits, leftHeld, rightHeld⟩ := fits
    obtain ⟨raise, raiseFits, isPower, same⟩ :=
      rightHypothesis rightFits (Expr.sitsAt_rightPlace rightHeld)
    refine ⟨.binary left .pow raise, ⟨leftFits, raiseFits, leftHeld, ?_⟩, rfl, ?_⟩
    · intro child isRoot
      rw [isPower] at isRoot
      obtain rfl : Operator.pow = child := by simpa using isRoot
      rfl
    · simp [Expr.content, same]

/-- A kind that continues no statement: it is no operator, begins no statement and is not
`else`. -/
def Neutral (kind : Token.Kind) : Prop :=
  Parse.Settles .lowest kind ∧ ¬ Parse.BeginsStatement kind ∧ kind ≠ .elseWord

instance (kind : Token.Kind) : Decidable (Neutral kind) := inferInstanceAs (Decidable (_ ∧ _))

/-- A statement that a parse finds before everything that continues no statement. -/
def Stmt.Complete (statement : Stmt) : Prop := ∀ kind, Neutral kind → statement.Placed kind

/-- A link that a parse finds before everything that continues no statement. -/
def Link.Complete (link : Link) : Prop := ∀ kind, Neutral kind → link.Placed kind

/-- A body that a parse finds before everything that continues no statement. -/
def Body.Complete (body : Body) : Prop := body ≠ .nil ∧ ∀ kind, Neutral kind → body.Follow kind

/-- What begins a statement is no operator. -/
theorem settles_of_beginsStatement {kind : Token.Kind} (begins : Parse.BeginsStatement kind) :
    Parse.Settles .lowest kind := by
  revert begins
  cases kind <;> decide

/-- What begins a statement is not `else`. -/
theorem ne_else_of_beginsStatement {kind : Token.Kind} (begins : Parse.BeginsStatement kind) :
    kind ≠ .elseWord := by
  rintro rfl
  exact absurd begins (by decide)

/-- A body begins with a kind that begins a statement. -/
theorem Body.beginsStatement_firstKind {body : Body} (present : body ≠ .nil)
    (next : Token.Kind) : Parse.BeginsStatement (body.firstKind next) := by
  cases body with
  | nil => exact absurd rfl present
  | cons first rest => exact first.beginsStatement_firstKind

/-- Whether a statement is an `if`. -/
def Stmt.isBranch : Stmt → Bool
  | .branch _ => true
  | .assign _ | .declaration _ _ | .repetition _ _ _ _ _ | .function _ _ _ _ _ | .call _ _ =>
    false

/-- Any statement but an `if` is found before everything that is no operator. -/
theorem Stmt.Complete.placed {statement : Stmt} (complete : statement.Complete)
    (plain : statement.isBranch = false) {kind : Token.Kind}
    (settles : Parse.Settles .lowest kind) : statement.Placed kind := by
  have placed : statement.Placed .endWord := complete .endWord (by decide)
  cases statement with
  | assign assignment => exact ⟨placed.1, settles⟩
  | declaration dataType assignment => exact ⟨placed.1, settles⟩
  | branch link => exact absurd plain (by simp [Stmt.isBranch])
  | repetition dataType init condition step body => exact placed
  | function returnType name parameters body result => exact placed
  | call name arguments => exact placed

/-- A link that goes on with further marks behind those of another one. -/
def Link.Extends (link : Link) (further : List Mark) (longer : Link) : Prop :=
  longer.Complete ∧ lexemes longer.content = lexemes (link.content ++ further)

/-- A body that goes on with further marks behind those of another one and begins like
it. -/
def Body.Extends (body : Body) (further : List Mark) (longer : Body) : Prop :=
  longer.Complete ∧ (∀ kind, longer.firstKind kind = body.firstKind kind) ∧
    lexemes longer.content = lexemes (body.content ++ further)

/-- A body of one statement is complete like the statement. -/
theorem Body.complete_single_iff {statement : Stmt} :
    (Body.cons statement .nil).Complete ↔ statement.Complete := by
  constructor
  · intro complete kind neutral
    exact (complete.2 kind neutral).1
  · intro complete
    exact ⟨nofun, fun kind neutral => ⟨complete kind neutral, neutral.2.1⟩⟩

/-- The statements behind the first one are complete with it. -/
theorem Body.Complete.rest {first second : Stmt} {others : Body}
    (complete : (Body.cons first (.cons second others)).Complete) :
    (Body.cons second others).Complete :=
  ⟨nofun, fun kind neutral => (complete.2 kind neutral).2⟩

/-- Behind its first statement a body can go on in another way that begins alike. -/
theorem Body.Extends.cons {first second : Stmt} {others longer : Body} {further : List Mark}
    (complete : (Body.cons first (.cons second others)).Complete)
    (extended : (Body.cons second others).Extends further longer) :
    (Body.cons first (.cons second others)).Extends further (.cons first longer) := by
  obtain ⟨longerComplete, begins, same⟩ := extended
  refine ⟨⟨nofun, fun kind neutral => ⟨?_, longerComplete.2 kind neutral⟩⟩, fun _ => rfl, ?_⟩
  · rw [begins]
    exact (complete.2 kind neutral).1
  · simp only [Body.content, lexemes_append] at same ⊢
    rw [same]
    simp

/-- Statements can follow a statement that is found before all of them. -/
theorem Body.extends_cons {statement : Stmt} {body : Body} (complete : body.Complete)
    (placed : ∀ kind, Parse.BeginsStatement kind → statement.Placed kind) :
    (Body.cons statement .nil).Extends body.content (.cons statement body) := by
  refine ⟨⟨nofun, fun kind neutral => ⟨?_, complete.2 kind neutral⟩⟩, fun _ => rfl, ?_⟩
  · exact placed _ (Body.beginsStatement_firstKind complete.1 kind)
  · simp [Body.content]

/-- Statements follow any statement but an `if`. -/
theorem Body.extends_plain {statement : Stmt} {body : Body} (complete : body.Complete)
    (single : (Body.cons statement .nil).Complete) (plain : statement.isBranch = false) :
    (Body.cons statement .nil).Extends body.content (.cons statement body) := by
  apply Body.extends_cons complete
  intro kind begins
  exact (Body.complete_single_iff.mp single).placed plain (settles_of_beginsStatement begins)

mutual

/-- Statements that follow a link stay behind it if it ends with a brace, and else go into
its last body. -/
theorem Link.absorb {body : Body} (complete : body.Complete) (link : Link)
    (linkComplete : link.Complete) :
    (∀ kind, Parse.BeginsStatement kind → link.Placed kind) ∨
      ∃ longer, link.Extends body.content longer := by
  match link with
  | .last condition true inner =>
    refine .inl fun kind begins => ?_
    obtain ⟨fits, follows, present, _⟩ := linkComplete .endWord (by decide)
    exact ⟨fits, follows, present, ne_else_of_beginsStatement begins⟩
  | .last condition false inner =>
    have innerComplete : inner.Complete :=
      ⟨(linkComplete .endWord (by decide)).2.2.1, fun kind neutral =>
        (linkComplete kind neutral).2.1⟩
    obtain ⟨longer, longerComplete, _, same⟩ := Body.absorb complete inner innerComplete
    refine .inr ⟨.last condition false longer, fun kind neutral => ?_, ?_⟩
    · exact ⟨(linkComplete kind neutral).1, longerComplete.2 kind neutral, longerComplete.1,
        neutral.2.2⟩
    · simp only [Link.content, enclosed, Bool.false_eq_true, ↓reduceIte, lexemes_append,
        lexemes_cons, lexemes_raised] at same ⊢
      rw [same]
      simp
  | .orElse condition braced inner next =>
    have nextComplete : next.Complete := fun kind neutral => (linkComplete kind neutral).2.2.2
    obtain ⟨fits, follows, present, _⟩ := linkComplete .endWord (by decide)
    rcases Link.absorb complete next nextComplete with closed | ⟨longer, longerComplete, same⟩
    · exact .inl fun kind begins => ⟨fits, follows, present, closed kind begins⟩
    · refine .inr ⟨.orElse condition braced inner longer, fun kind neutral => ?_, ?_⟩
      · exact ⟨fits, follows, present, longerComplete kind neutral⟩
      · simp only [Link.content, lexemes_append, lexemes_cons, lexemes_raised] at same ⊢
        rw [same]
        simp

/-- Statements that follow a body go on with it, inside its last statement if that is an
`if` that does not end with a brace. -/
theorem Body.absorb {body : Body} (complete : body.Complete) (front : Body)
    (frontComplete : front.Complete) : ∃ longer, front.Extends body.content longer := by
  match front with
  | .nil => exact absurd rfl frontComplete.1
  | .cons (.branch link) .nil =>
    have linkComplete : link.Complete := Body.complete_single_iff.mp frontComplete
    rcases Link.absorb complete link linkComplete with closed | ⟨longer, longerComplete, same⟩
    · exact ⟨_, Body.extends_cons complete closed⟩
    · refine ⟨.cons (.branch longer) .nil, Body.complete_single_iff.mpr longerComplete,
        fun _ => rfl, ?_⟩
      simpa [Body.content, Stmt.marks] using same
  | .cons first (.cons second others) =>
    obtain ⟨longer, extended⟩ := Body.absorb complete (.cons second others) frontComplete.rest
    exact ⟨_, extended.cons frontComplete⟩
  | .cons (.assign _) .nil | .cons (.declaration _ _) .nil | .cons (.call _ _) .nil
  | .cons (.repetition _ _ _ _ _) .nil | .cons (.function _ _ _ _ _) .nil =>
    exact ⟨_, Body.extends_plain complete frontComplete rfl⟩

end

mutual

/-- An `else` that follows a link goes to the link at the end of its chain, or to the last
`if` in the body of that link. -/
theorem Link.attach {next : Link} (complete : next.Complete) (link : Link)
    (linkComplete : link.Complete) :
    ∃ longer, link.Extends (.fixed .elseWord :: next.content) longer := by
  match link with
  | .last condition true inner =>
    refine ⟨.orElse condition true inner next, fun kind neutral => ?_, ?_⟩
    · obtain ⟨fits, follows, present, _⟩ := linkComplete kind neutral
      exact ⟨fits, follows, present, complete kind neutral⟩
    · simp [Link.content]
  | .last condition false inner =>
    have fits : condition.Fits := (linkComplete .endWord (by decide)).1
    have innerComplete : inner.Complete :=
      ⟨(linkComplete .endWord (by decide)).2.2.1, fun kind neutral =>
        (linkComplete kind neutral).2.1⟩
    rcases Body.attach complete inner innerComplete with
      follows | ⟨longer, longerComplete, _, same⟩
    · refine ⟨.orElse condition false inner next, fun kind neutral => ?_, ?_⟩
      · exact ⟨fits, follows, innerComplete.1, complete kind neutral⟩
      · simp [Link.content]
    · refine ⟨.last condition false longer, fun kind neutral => ?_, ?_⟩
      · exact ⟨fits, longerComplete.2 kind neutral, longerComplete.1, neutral.2.2⟩
      · simp only [Link.content, enclosed, Bool.false_eq_true, ↓reduceIte, lexemes_append,
          lexemes_cons, lexemes_raised] at same ⊢
        rw [same]
        simp
  | .orElse condition braced inner rest =>
    have restComplete : rest.Complete := fun kind neutral => (linkComplete kind neutral).2.2.2
    obtain ⟨fits, follows, present, _⟩ := linkComplete .endWord (by decide)
    obtain ⟨longer, longerComplete, same⟩ := Link.attach complete rest restComplete
    refine ⟨.orElse condition braced inner longer, fun kind neutral => ?_, ?_⟩
    · exact ⟨fits, follows, present, longerComplete kind neutral⟩
    · simp only [Link.content, lexemes_append, lexemes_cons, lexemes_raised] at same ⊢
      rw [same]
      simp

/-- An `else` that follows a body ends it, unless the last statement is an `if` that can
take it. -/
theorem Body.attach {next : Link} (complete : next.Complete) (body : Body)
    (bodyComplete : body.Complete) :
    body.Follow .elseWord ∨
      ∃ longer, body.Extends (.fixed .elseWord :: next.content) longer := by
  match body with
  | .nil => exact absurd rfl bodyComplete.1
  | .cons (.branch link) .nil =>
    have linkComplete : link.Complete := Body.complete_single_iff.mp bodyComplete
    obtain ⟨longer, longerComplete, same⟩ := Link.attach complete link linkComplete
    refine .inr ⟨.cons (.branch longer) .nil, Body.complete_single_iff.mpr longerComplete,
      fun _ => rfl, ?_⟩
    simpa [Body.content, Stmt.marks] using same
  | .cons first (.cons second others) =>
    rcases Body.attach complete (.cons second others) bodyComplete.rest with
      follows | ⟨longer, extended⟩
    · exact .inl ⟨(bodyComplete.2 .endWord (by decide)).1, follows⟩
    · exact .inr ⟨_, extended.cons bodyComplete⟩
  | .cons (.assign _) .nil | .cons (.declaration _ _) .nil | .cons (.call _ _) .nil
  | .cons (.repetition _ _ _ _ _) .nil | .cons (.function _ _ _ _ _) .nil =>
    have single := Body.complete_single_iff.mp bodyComplete
    have ends : ¬ Parse.BeginsStatement .elseWord := by decide
    exact .inl ⟨single.placed rfl (by decide), ends⟩

end

end Concrete

end StartEnd
