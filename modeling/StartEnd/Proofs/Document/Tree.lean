import StartEnd.Proofs.Document.Reader

/-!
# Reading back trees

The readers of trees are faithful to every tree. Each record and each variant is one step,
and the trees that contain each other are taken together.
-/

namespace StartEnd

open Json

/-- A data type is read back. -/
theorem DataType.readsBack (dataType : DataType) :
    ReadsBack DataType.ofJson? DataType.toJson dataType :=
  readsBack_scalar trivial (by cases dataType <;> rfl)

/-- An operator is read back. -/
theorem Operator.readsBack (operator : Operator) :
    ReadsBack Operator.ofJson? (fun operator => .string operator.name) operator :=
  readsBack_scalar trivial (by cases operator <;> rfl)

/-- A sign of comparison is read back. -/
theorem Comparison.readsBack (comparison : Comparison) :
    ReadsBack Comparison.ofJson? (fun comparison => .string comparison.name) comparison :=
  readsBack_scalar trivial (by cases comparison <;> rfl)

/-- A name is read back. -/
theorem Identifier.readsBack (name : Identifier) :
    ReadsBack Identifier.ofJson? Identifier.toJson name := by
  have distinct : Identifier.fields.Nodup := by decide
  have isRecord : "value" ∉ variants := by decide
  have fields := (readsBack_text name.value).field "value" (by decide) fieldsReadBack_nil
  refine fields.record (fun parts => Identifier.mk parts.1) isRecord distinct (fun _ => rfl) rfl ?_
  intro members
  simp [Identifier.ofJson?, readPart_object, Option.map_bind]

/-- An expression is read back. -/
theorem Expr.readsBack (expr : Expr) : ReadsBack Expr.ofJson? Expr.toJson expr := by
  induction expr with
  | binary left operator right leftHypothesis rightHypothesis =>
    have distinct : Expr.binaryFields.Nodup := by decide
    have named : "Binary" ∈ variants := by decide
    have fields := leftHypothesis.field "left" (by decide) <|
      operator.readsBack.field "operator" (by decide) <|
        rightHypothesis.field "right" (by decide) fieldsReadBack_nil
    refine fields.variant named (fun parts => Expr.binary parts.1 parts.2.1 parts.2.2.1) id
      distinct (fun _ => rfl) (by simp [Expr.ofJson?]) (by simp [Expr.ofJson?, Json.tagged]) ?_
    intro members
    rw [Json.tagged, Expr.ofJson?, if_pos rfl, ← map_part?_object members binaryFields "left",
      ← map_part?_object members binaryFields "right"]
    -- The operands are looked up before the operator is read, and read after it.
    cases (Json.object members).part? binaryFields "left" with
    | none => simp
    | some left =>
      cases (Json.object members).part? binaryFields "right" with
      | none => simp
      | some right =>
        cases read : Expr.ofJson? left.1 with
        | none => simp [read]
        | some tree =>
          simp [read, readPart_object, Option.map_bind, Option.bind_assoc]
  | symbol name =>
    have named : "Symbol" ∈ variants := by decide
    refine name.readsBack.variant named Expr.symbol (fun _ => rfl) (by simp [Expr.ofJson?]) ?_
    intro document
    simp [Json.tagged, Expr.ofJson?, Option.map_eq_bind]
  | number digits =>
    have distinct : Expr.numberFields.Nodup := by decide
    have named : "Number" ∈ variants := by decide
    have isRecord : "value" ∉ variants := by decide
    have fields := (readsBack_text digits).field "value" (by decide) fieldsReadBack_nil
    refine fields.variant named (fun parts => Expr.number parts.1) isRecord distinct
      (fun _ => rfl) (by simp [Expr.ofJson?]) (by simp [Expr.ofJson?, Json.tagged]) ?_
    intro members
    simp [Json.tagged, Expr.ofJson?, readPart_object, Option.map_bind]

/-- A comparison is read back. -/
theorem Condition.readsBack (condition : Condition) :
    ReadsBack Condition.ofJson? Condition.toJson condition := by
  have distinct : Condition.fields.Nodup := by decide
  have fields := condition.left.readsBack.field "left" (by decide) <|
    condition.operator.readsBack.field "operator" (by decide) <|
      condition.right.readsBack.field "right" (by decide) fieldsReadBack_nil
  refine fields.record (fun parts => Condition.mk parts.1 parts.2.1 parts.2.2.1) id distinct
    (fun _ => rfl) rfl ?_
  intro members
  simp [Condition.ofJson?, readPart_object, Option.map_bind, Option.bind_assoc]

/-- An assignment is read back. -/
theorem Assign.readsBack (assign : Assign) : ReadsBack Assign.ofJson? Assign.toJson assign := by
  have distinct : Assign.fields.Nodup := by decide
  have fields := assign.target.readsBack.field "target" (by decide) <|
    assign.value.readsBack.field "value" (by decide) fieldsReadBack_nil
  refine fields.record (fun parts => Assign.mk parts.1 parts.2.1) id distinct (fun _ => rfl) rfl ?_
  intro members
  simp [Assign.ofJson?, readPart_object, Option.map_bind, Option.bind_assoc]

/-- A loop's advance is read back. -/
theorem Step.readsBack (step : Step) : ReadsBack Step.ofJson? Step.toJson step := by
  cases step with
  | increment name =>
    have named : "Increment" ∈ variants := by decide
    refine name.readsBack.variant named Step.increment (fun _ => rfl) rfl ?_
    intro document
    simp [Json.tagged, Step.ofJson?, Option.map_eq_bind]
  | decrement name =>
    have named : "Decrement" ∈ variants := by decide
    refine name.readsBack.variant named Step.decrement (fun _ => rfl) rfl ?_
    intro document
    simp [Json.tagged, Step.ofJson?, Option.map_eq_bind]
  | assign assignment =>
    have named : "Assign" ∈ variants := by decide
    refine assignment.readsBack.variant named Step.assign (fun _ => rfl) rfl ?_
    intro document
    simp [Json.tagged, Step.ofJson?, Option.map_eq_bind]

/-- A typed name is read back. -/
theorem Parameter.readsBack (parameter : Parameter) :
    ReadsBack Parameter.ofJson? Parameter.toJson parameter := by
  have distinct : Parameter.fields.Nodup := by decide
  have fields := parameter.dataType.readsBack.field "data_type" (by decide) <|
    parameter.name.readsBack.field "name" (by decide) fieldsReadBack_nil
  refine fields.record (fun parts => Parameter.mk parts.1 parts.2.1) id distinct
    (fun _ => rfl) rfl ?_
  intro members
  simp [Parameter.ofJson?, readPart_object, Option.map_bind, Option.bind_assoc]

/-- A list of typed names is read back. -/
theorem parameters_readBack (parameters : List Parameter) :
    ReadsBack parametersOfJson? parametersToJson parameters :=
  readsBack_array fun parameter _ => parameter.readsBack

/-- What stands behind `else`, if anything does. -/
def Branch.elseToJson : Option Branch → Json
  | none => .null
  | some next => next.toJson

/-- Reads what stands behind `else`, from the field that may be missing or null. -/
def Branch.elseOfJson? : Option Json → Option (Option Branch)
  | none => some none
  | some document => if document.isNull then some none else (Branch.ofJson? document).map some

/-- The link with a condition, a body and what stands behind `else`. -/
def Branch.ofParts (condition : Condition) (body : Block) : Option Branch → Branch
  | none => .last condition body
  | some next => .orElse condition body next

/-- Every link has a condition, a body and maybe a next link. -/
theorem Branch.ofParts_parts (link : Branch) :
    Branch.ofParts link.condition link.body link.next? = link := by
  cases link <;> rfl

/-- The document of a link has the documents of its parts. -/
theorem Branch.toJson_ofParts (condition : Condition) (body : Block) (next : Option Branch) :
    (Branch.ofParts condition body next).toJson =
      .object [("condition", condition.toJson), ("then_body", body.toJson),
        ("else_body", elseToJson next)] := by
  cases next with
  | none => rw [ofParts, Branch.toJson, elseToJson]
  | some next => rw [ofParts, Branch.toJson, elseToJson]

/-- The document of a link is not null. -/
theorem Branch.isNull_toJson (link : Branch) : link.toJson.isNull = false := by
  rw [← link.ofParts_parts, toJson_ofParts]
  rfl

/-- What stands behind `else` is read back, also from a missing field. -/
theorem Branch.elseReadsBack {next : Option Branch}
    (reads : ∀ link ∈ next, ReadsBack Branch.ofJson? Branch.toJson link) :
    FieldsReadBack (fun members => elseOfJson? (lookup? "else_body" members))
      (fun next => [("else_body", elseToJson next)]) next := by
  rintro removed meant revised ⟨lost, others, here, further, rfl, rfl, found, rfl, rfl⟩
  have given : Given elseToJson next lost here (elseOfJson? (lookup? "else_body" revised)) := by
    generalize lookup? "else_body" revised = stored at found
    cases found with
    | kept edit =>
      cases next with
      | none =>
        obtain ⟨rfl, rfl, rfl⟩ := edit.of_scalar trivial
        exact ⟨fun _ => ⟨none, rfl, fun _ => rfl, rfl⟩, fun positive => absurd positive (by decide)⟩
      | some link =>
        have given : Given elseToJson (some link) lost here _ :=
          (reads link rfl _ _ _ edit).map some id (fun _ => rfl) Function.injective_id
        have present : _ = false := edit.isNull_eq.trans link.isNull_toJson
        simpa [elseOfJson?, present] using given
    | missing needed => exact absurd rfl needed
    | missingElse isElse =>
      refine ⟨fun _ => ⟨none, rfl, ?_, rfl⟩, fun positive => absurd positive (by decide)⟩
      intro same
      cases next with
      | none => rfl
      | some link =>
        have present : (elseToJson (some link)).isNull = false := link.isNull_toJson
        rw [← same] at present
        exact absurd present (by decide)
  have injective : Function.Injective fun document : Json => [("else_body", document)] := by
    intro first second same
    simpa using same
  exact given.within injective

/-- A block is read back if its statements are. -/
theorem Block.readsBack_of_items {block : Block}
    (reads : ∀ {removed : Nat} {meant revised : List Json},
      EditItems Edit removed block.toItems meant revised →
        Given Block.toItems block removed meant (Block.ofItems? revised)) :
    ReadsBack Block.ofJson? Block.toJson block := by
  have distinct : Block.fields.Nodup := by decide
  have isRecord : "body" ∉ variants := by decide
  have array : ReadsBack (fun document => do Block.ofItems? (← document.items?).1)
      (fun block => Json.array block.toItems) block := by
    intro removed meant revised edit
    rcases edit.of_array with ⟨meantItems, items, rfl, rfl, inside⟩ | ⟨rfl, rfl⟩
    · exact (reads inside).within fun _ _ same => Json.array.inj same
    · exact .lost
  have fields := array.field "body" (by decide) fieldsReadBack_nil
  refine fields.record Prod.fst isRecord distinct (fun _ => by rw [Block.toJson])
    (by simp [Block.ofJson?]) ?_
  intro members
  rw [Block.ofJson?, ← map_part?_object members Block.fields "body"]
  cases (Json.object members).part? Block.fields "body" with
  | none => rfl
  | some body => simp [Option.map_bind]

/-- A link is read back if its body and the next link are. -/
theorem Branch.readsBack_of_parts (condition : Condition) {body : Block} {next : Option Branch}
    (bodyReads : ReadsBack Block.ofJson? Block.toJson body)
    (nextReads : ∀ link ∈ next, ReadsBack Branch.ofJson? Branch.toJson link) :
    ReadsBack Branch.ofJson? Branch.toJson (ofParts condition body next) := by
  have distinct : Branch.fields.Nodup := by decide
  have fields := condition.readsBack.field "condition" (by decide) <|
    bodyReads.field "then_body" (by decide) <| elseReadsBack nextReads
  refine fields.record (fun parts => ofParts parts.1 parts.2.1 parts.2.2) id distinct
    (fun _ => toJson_ofParts _ _ _) (by simp [Branch.ofJson?]) ?_
  intro members
  rw [Branch.ofJson?, ← map_part?_object members Branch.fields "then_body",
    ← map_part?_object members Branch.fields "else_body"]
  cases (Json.object members).part? Branch.fields "then_body" with
  | none => simp
  | some body =>
    cases (Json.object members).part? Branch.fields "else_body" with
    | none =>
      simp [elseOfJson?, readPart_object, Option.map_bind, Option.bind_assoc, ofParts]
    | some next =>
      cases isNull : next.1.isNull with
      | true =>
        simp [elseOfJson?, isNull, readPart_object, Option.map_bind, Option.bind_assoc, ofParts]
      | false =>
        simp [elseOfJson?, isNull, readPart_object, Option.map_bind, Option.bind_map,
          Option.bind_assoc, ofParts]

mutual

/-- A statement is read back. -/
theorem Stmt.readsBack (statement : Stmt) : ReadsBack Stmt.ofJson? Stmt.toJson statement := by
  match statement with
  | .assign assignment =>
    have named : "Assign" ∈ variants := by decide
    refine assignment.readsBack.variant named Stmt.assign (fun _ => by rw [Stmt.toJson])
      (by simp [Stmt.ofJson?]) ?_
    intro document
    simp [Json.tagged, Stmt.ofJson?, Option.map_eq_bind]
  | .declaration dataType assignment =>
    have distinct : Stmt.declarationFields.Nodup := by decide
    have named : "Declaration" ∈ variants := by decide
    have fields := dataType.readsBack.field "data_type" (by decide) <|
      assignment.readsBack.field "assign" (by decide) fieldsReadBack_nil
    refine fields.variant named (fun parts => Stmt.declaration parts.1 parts.2.1) id distinct
      (fun _ => by rw [Stmt.toJson]) (by simp [Stmt.ofJson?])
      (by simp [Stmt.ofJson?, Json.tagged]) ?_
    intro members
    simp [Json.tagged, Stmt.ofJson?, readPart_object, Option.map_bind, Option.bind_assoc]
  | .branch link =>
    have named : "If" ∈ variants := by decide
    refine (Branch.readsBack link).variant named Stmt.branch (fun _ => by rw [Stmt.toJson])
      (by simp [Stmt.ofJson?]) ?_
    intro document
    simp [Json.tagged, Stmt.ofJson?, Option.map_eq_bind]
  | .repetition dataType init condition step body =>
    have distinct : Stmt.repetitionFields.Nodup := by decide
    have named : "Repeat" ∈ variants := by decide
    have bodyReads := Block.readsBack_of_items fun edit => Block.itemsReadBack body edit
    have fields := dataType.readsBack.field "data_type" (by decide) <|
      init.readsBack.field "init" (by decide) <|
        condition.readsBack.field "condition" (by decide) <|
          step.readsBack.field "step" (by decide) <|
            bodyReads.field "body" (by decide) fieldsReadBack_nil
    refine fields.variant named (fun parts => Stmt.repetition parts.1 parts.2.1 parts.2.2.1
      parts.2.2.2.1 parts.2.2.2.2.1) id distinct (fun _ => by rw [Stmt.toJson])
      (by simp [Stmt.ofJson?]) (by simp [Stmt.ofJson?, Json.tagged]) ?_
    intro members
    rw [← map_part?_object members Stmt.repetitionFields "body"]
    cases found : (Json.object members).part? Stmt.repetitionFields "body" with
    | none => simp [Json.tagged, Stmt.ofJson?, found]
    | some body =>
      simp [Json.tagged, Stmt.ofJson?, found, readPart_object, Option.map_bind, Option.bind_assoc]
  | .function returnType name parameters body result =>
    have distinct : Stmt.functionFields.Nodup := by decide
    have named : "FnDecl" ∈ variants := by decide
    have bodyReads := Block.readsBack_of_items fun edit => Block.itemsReadBack body edit
    have fields := returnType.readsBack.field "return_type" (by decide) <|
      name.readsBack.field "name" (by decide) <|
        (parameters_readBack parameters).field "parameters" (by decide) <|
          bodyReads.field "body" (by decide) <|
            result.readsBack.field "return_id" (by decide) fieldsReadBack_nil
    refine fields.variant named (fun parts => Stmt.function parts.1 parts.2.1 parts.2.2.1
      parts.2.2.2.1 parts.2.2.2.2.1) id distinct (fun _ => by rw [Stmt.toJson])
      (by simp [Stmt.ofJson?]) (by simp [Stmt.ofJson?, Json.tagged]) ?_
    intro members
    rw [← map_part?_object members Stmt.functionFields "body"]
    cases found : (Json.object members).part? Stmt.functionFields "body" with
    | none => simp [Json.tagged, Stmt.ofJson?, found]
    | some body =>
      cases read : Block.ofJson? body.1 with
      | none => simp [Json.tagged, Stmt.ofJson?, found, read]
      | some block =>
        simp [Json.tagged, Stmt.ofJson?, found, read, readPart_object, Option.map_bind,
          Option.bind_assoc]
  | .call name arguments =>
    have distinct : Stmt.callFields.Nodup := by decide
    have named : "FnCall" ∈ variants := by decide
    have fields := name.readsBack.field "name" (by decide) <|
      (parameters_readBack arguments).field "arguments" (by decide) fieldsReadBack_nil
    refine fields.variant named (fun parts => Stmt.call parts.1 parts.2.1) id distinct
      (fun _ => by rw [Stmt.toJson]) (by simp [Stmt.ofJson?])
      (by simp [Stmt.ofJson?, Json.tagged]) ?_
    intro members
    simp [Json.tagged, Stmt.ofJson?, readPart_object, Option.map_bind, Option.bind_assoc]

/-- A link is read back. -/
theorem Branch.readsBack (link : Branch) : ReadsBack Branch.ofJson? Branch.toJson link := by
  match link with
  | .last condition body =>
    have bodyReads := Block.readsBack_of_items fun edit => Block.itemsReadBack body edit
    have nextReads : ∀ next ∈ (none : Option Branch), ReadsBack Branch.ofJson? Branch.toJson next :=
      nofun
    exact Branch.readsBack_of_parts condition bodyReads nextReads
  | .orElse condition body next =>
    have bodyReads := Block.readsBack_of_items fun edit => Block.itemsReadBack body edit
    have nextReads : ∀ link ∈ some next, ReadsBack Branch.ofJson? Branch.toJson link := by
      rintro link ⟨⟩
      exact Branch.readsBack next
    exact Branch.readsBack_of_parts condition bodyReads nextReads

/-- Statements in a row are read back. -/
theorem Block.itemsReadBack (block : Block) {removed : Nat} {meant revised : List Json}
    (edit : EditItems Edit removed block.toItems meant revised) :
    Given Block.toItems block removed meant (Block.ofItems? revised) := by
  match block with
  | .nil =>
    rw [Block.toItems] at edit
    cases edit
    exact ⟨fun _ => ⟨.nil, by rw [Block.toItems], fun _ => rfl, by rw [Block.ofItems?]⟩,
      fun positive => absurd positive (by decide)⟩
  | .cons first rest =>
    rw [Block.toItems] at edit
    cases edit with
    | cons here further =>
      have both := (Stmt.readsBack first _ _ _ here).pair (Block.itemsReadBack rest further)
      have listed : Given Block.toItems (.cons first rest) _ _ _ :=
        both.map (fun pair => Block.cons pair.1 pair.2) (fun pair => pair.1 :: pair.2)
          (fun _ => by rw [Block.toItems]; rfl) cons_injective
      rw [Block.ofItems?]
      simpa [Option.map_bind] using listed

end

end StartEnd
