import StartEnd.Fault.Document
import StartEnd.Proofs.Document.Entered
import StartEnd.Proofs.Document.Tree

/-!
# Documents are read back

A program is read back from its document, whatever members are added to its records and
whether or not the null `else_body` of a last link is there, as long as its document does not
nest too deep. An `else_body` that is not null can be removed too, and then the link is the
last one of its chain. A document without any other of its fields is refused, and so is one that
nests too deep, as that of a long sum does. Faults never nest too deep.
-/

namespace StartEnd

open Json

/-- A program is read back from its record. -/
theorem Program.readsBack (program : Program) :
    ReadsBack Program.ofRecord? Program.toJson program := by
  have distinct : Program.fields.Nodup := by decide
  have isRecord : "body" ∉ variants := by decide
  have bodyReads := Block.readsBack_of_items fun edit => Block.itemsReadBack program.body edit
  have fields := bodyReads.field "body" (by decide) fieldsReadBack_nil
  refine fields.record (fun parts => Program.mk parts.1) isRecord distinct (fun _ => rfl) rfl ?_
  intro members
  simp [Program.ofRecord?, readPart_object, Option.map_bind, Option.bind_assoc]

/-- A whole number is read as it was written. -/
theorem natural?_natural (value : Nat) : (natural value).natural? = some value := rfl

/-- A word of 32 bits is read back. -/
theorem word32_readsBack (word : UInt32) :
    ReadsBack word32? (fun word => .natural word.toNat) word := by
  apply readsBack_scalar
  · trivial
  · have small : word.toNat < UInt32.size := word.toNat_lt_size
    simp [word32?, natural?_natural, small]

/-- A word of 64 bits is read back. -/
theorem word64_readsBack (word : UInt64) :
    ReadsBack word64? (fun word => .natural word.toNat) word := by
  apply readsBack_scalar
  · trivial
  · have small : word.toNat < UInt64.size := word.toNat_lt_size
    simp [word64?, natural?_natural, small]

/-- A character is read back. -/
theorem character_readsBack (character : Char) :
    ReadsBack character? (fun character => .string character.toString) character := by
  apply readsBack_scalar
  · trivial
  · simp [character?, text?]

/-- A position is read back. -/
theorem Position.readsBack (position : Position) :
    ReadsBack Position.ofJson? Position.toJson position := by
  have distinct : Position.fields.Nodup := by decide
  have fields := (word32_readsBack position.offset).field "offset" (by decide) <|
    (word32_readsBack position.line).field "line" (by decide) <|
      (word32_readsBack position.column).field "column" (by decide) fieldsReadBack_nil
  refine fields.record (fun parts => Position.mk parts.1 parts.2.1 parts.2.2.1) id distinct
    (fun _ => rfl) rfl ?_
  intro members
  simp only [← map_part?_object members Position.fields]
  simp [Position.ofJson?, Option.map_bind, Option.bind_assoc]

/-- A kind is read back. -/
theorem Token.Kind.readsBack (kind : Token.Kind) :
    ReadsBack Token.Kind.ofJson? Token.Kind.toJson kind :=
  readsBack_scalar trivial (by cases kind <;> rfl)

/-- Reading every item of a list is reading all items. -/
theorem mapM_eq_readAll {α : Type} (read : Json → Option α) (items : List Json) :
    items.mapM read = readAll read items := by
  induction items with
  | nil => rfl
  | cons first rest inductionHypothesis => rw [List.mapM_cons, inductionHypothesis, readAll]

/-- A list of kinds is read back. -/
theorem kinds_readBack (kinds : List Token.Kind) :
    ReadsBack kindsOfJson? kindsToJson kinds := by
  have array := readsBack_array fun kind (_ : kind ∈ kinds) => kind.readsBack
  simp only [← mapM_eq_readAll] at array
  exact array

/-- A cause is read back. -/
theorem Fault.Cause.readsBack (cause : Fault.Cause) :
    ReadsBack Fault.Cause.ofJson? Fault.Cause.toJson cause := by
  cases cause with
  | unrecognisedCharacter character =>
    have named : "UnrecognisedCharacter" ∈ variants := by decide
    have isRecord : "character" ∉ variants := by decide
    have fields := (character_readsBack character).field "character" (by decide) fieldsReadBack_nil
    refine fields.variant named (fun parts => Fault.Cause.unrecognisedCharacter parts.1) isRecord
      (List.nodup_singleton _) (fun _ => rfl) rfl rfl ?_
    intro members
    simp only [← map_field?_object]
    simp [tagged, Fault.Cause.ofJson?, Option.map_bind, Option.bind_assoc]
  | unexpectedToken token expected =>
    have distinct : ["token", "expected"].Nodup := by decide
    have named : "UnexpectedToken" ∈ variants := by decide
    have fields := (readsBack_text token).field "token" (by decide) <|
      (kinds_readBack expected).field "expected" (by decide) fieldsReadBack_nil
    refine fields.variant named (fun parts => Fault.Cause.unexpectedToken parts.1 parts.2.1) id
      distinct (fun _ => rfl) rfl rfl ?_
    intro members
    simp only [← map_field?_object]
    simp [tagged, Fault.Cause.ofJson?, Option.map_bind, Option.bind_assoc]
  | unexpectedEndOfInput expected =>
    have named : "UnexpectedEndOfInput" ∈ variants := by decide
    have isRecord : "expected" ∉ variants := by decide
    have fields := (kinds_readBack expected).field "expected" (by decide) fieldsReadBack_nil
    refine fields.variant named (fun parts => Fault.Cause.unexpectedEndOfInput parts.1) isRecord
      (List.nodup_singleton _) (fun _ => rfl) rfl rfl ?_
    intro members
    simp only [← map_field?_object]
    simp [tagged, Fault.Cause.ofJson?, Option.map_bind, Option.bind_assoc]
  | nestingTooDeep limit =>
    have named : "NestingTooDeep" ∈ variants := by decide
    have isRecord : "limit" ∉ variants := by decide
    have fields := (word64_readsBack limit).field "limit" (by decide) fieldsReadBack_nil
    refine fields.variant named (fun parts => Fault.Cause.nestingTooDeep parts.1) isRecord
      (List.nodup_singleton _) (fun _ => rfl) rfl rfl ?_
    intro members
    simp only [← map_field?_object]
    simp [tagged, Fault.Cause.ofJson?, Option.map_bind, Option.bind_assoc]

/-- A fault is read back from its record. -/
theorem Fault.readsBack (fault : Fault) : ReadsBack Fault.ofRecord? Fault.toJson fault := by
  have distinct : Fault.fields.Nodup := by decide
  have fields := fault.cause.readsBack.field "internal_error" (by decide) <|
    fault.position.readsBack.field "position" (by decide) fieldsReadBack_nil
  refine fields.record (fun parts => Fault.mk parts.1 parts.2.1) id distinct (fun _ => rfl) rfl ?_
  intro members
  simp only [← map_part?_object members Fault.fields]
  simp [Fault.ofRecord?, Option.map_bind, Option.bind_assoc]

/-- At most four arrays and objects stand inside one another in the document of a fault. -/
theorem Fault.nestsWithin_toJson (fault : Fault) (levels : Nat) :
    fault.toJson.nestsWithin (levels + 4) = true := by
  have kinds (expected : List Token.Kind) :
      (kindsToJson expected).nestsWithin (levels + 1) = true := by
    simp [kindsToJson, nestsWithin, Token.Kind.toJson]
  obtain ⟨cause, position⟩ := fault
  cases cause <;> simp [toJson, Cause.toJson, Position.toJson, nestsWithin, natural, kinds]

namespace Json.ReadsBack

variable {α : Type} {read : Json → Option α} {write : α → Json} {value : α}

/-- From an edit that loses nothing the value that is meant is read, if nothing nests deeper in
its document than is entered. Otherwise nothing is read. -/
theorem whole_entered (reads : ReadsBack read write value) (levels : Nat) {meant revised : Json}
    (edit : Edit 0 (write value) meant revised) :
    ∃ other, write other = meant ∧ (meant = write value → other = value) ∧
      read (revised.entered levels) = if meant.nestsWithin levels then some other else none := by
  obtain ⟨lost, found, nothingLost⟩ := editsEntered levels _ _ _ _ edit
  have given := reads _ _ _ found
  by_cases within : meant.nestsWithin levels = true
  · simp only [if_pos within]
    exact given.whole (nothingLost.mpr ⟨rfl, within⟩)
  · simp only [if_neg within]
    have somethingLost : 0 < lost :=
      Nat.pos_of_ne_zero fun nothing => within (nothingLost.mp nothing).2
    obtain ⟨other, isMeant, isValue, _⟩ := (reads _ _ _ edit).whole rfl
    exact ⟨other, isMeant, isValue, given.missing somethingLost⟩

/-- From an edit that means the same and loses nothing the value is read, if nothing nests deeper
in its document than is entered. -/
theorem exact_entered (reads : ReadsBack read write value) (levels : Nat) {revised : Json}
    (edit : Edit 0 (write value) (write value) revised) :
    read (revised.entered levels) =
      if (write value).nestsWithin levels then some value else none := by
  obtain ⟨other, _, same, found⟩ := reads.whole_entered levels edit
  rw [found, same rfl]

/-- From an edit that loses something nothing is read. -/
theorem missing_entered (reads : ReadsBack read write value) (levels : Nat) {removed : Nat}
    {meant revised : Json} (incomplete : 0 < removed)
    (edit : Edit removed (write value) meant revised) : read (revised.entered levels) = none := by
  obtain ⟨lost, found, nothingLost⟩ := editsEntered levels _ _ _ _ edit
  apply (reads _ _ _ found).missing
  apply Nat.pos_of_ne_zero
  intro nothing
  exact absurd (nothingLost.mp nothing).1 (Nat.ne_of_gt incomplete)

end Json.ReadsBack

/-- Programs are read back from their documents, also with members added to records and without
those `else_body` fields that are null, if their documents do not nest too deep; otherwise nothing
is read. Without an `else_body` that is not null, the program is read whose document has null
there. Without any other field, nothing is read. Faults are read back from their documents in the
same way, and these never nest too deep. -/
theorem documents_read_back (program : Program) (fault : Fault) :
    Program.ofJson? program.toJson =
      (if program.toJson.nestsWithin nestingLimit then some program else none) ∧
    (∀ revised, Edit 0 program.toJson program.toJson revised →
      Program.ofJson? revised =
        if program.toJson.nestsWithin nestingLimit then some program else none) ∧
    (∀ meant revised, Edit 0 program.toJson meant revised →
      ∃ shorter : Program, shorter.toJson = meant ∧
        Program.ofJson? revised =
          if meant.nestsWithin nestingLimit then some shorter else none) ∧
    (∀ removed meant revised, 0 < removed → Edit removed program.toJson meant revised →
      Program.ofJson? revised = none) ∧
    Fault.ofJson? fault.toJson = some fault ∧
    (∀ revised, Edit 0 fault.toJson fault.toJson revised → Fault.ofJson? revised = some fault) ∧
    ∀ removed meant revised, 0 < removed → Edit removed fault.toJson meant revised →
      Fault.ofJson? revised = none := by
  have programReads := program.readsBack
  have faultReads := fault.readsBack
  have faultExact (revised : Json) (edit : Edit 0 fault.toJson fault.toJson revised) :
      Fault.ofJson? revised = some fault :=
    (faultReads.exact_entered nestingLimit edit).trans (if_pos (fault.nestsWithin_toJson 123))
  refine ⟨programReads.exact_entered _ (.same _), fun _ => programReads.exact_entered _, ?_, ?_,
    faultExact _ (.same _), faultExact, ?_⟩
  · intro meant revised edit
    obtain ⟨shorter, isMeant, _, found⟩ := programReads.whole_entered nestingLimit edit
    exact ⟨shorter, isMeant, found⟩
  · intro removed meant revised incomplete edit
    exact programReads.missing_entered _ incomplete edit
  · intro removed meant revised incomplete edit
    exact faultReads.missing_entered _ incomplete edit

/-- The document of a program that has an `if` with the given members as its only statement. -/
def Json.ifDocument (members : List (String × Json)) : Json :=
  .object [("body", .object [("body", .array [.tagged "If" (.object members)])])]

/-- The document of a program with a single `if`. -/
theorem Program.toJson_if (condition : Condition) (body : Block) (next : Option Branch) :
    (Program.mk (.cons (.branch (.ofParts condition body next)) .nil)).toJson =
      .ifDocument [("condition", condition.toJson), ("then_body", body.toJson),
        ("else_body", Branch.elseToJson next)] := by
  simp [Program.toJson, Block.toJson, Block.toItems, Stmt.toJson, Branch.toJson_ofParts,
    Json.ifDocument]

/-- The document of a block with a single assignment. -/
theorem Block.toJson_assign (assignment : Assign) :
    (Block.cons (.assign assignment) .nil).toJson =
      .object [("body", .array [.tagged "Assign" assignment.toJson])] := by
  simp [Block.toJson, Block.toItems, Stmt.toJson]

/-- The members of a single `if` are edited inside its document. -/
theorem Json.EditMembers.ifDocument {removed : Nat} {members meant revised : List (String × Json)}
    (isRecord : ¬ NamesVariant members)
    (inside : EditMembers Edit (members.map Prod.fst) removed members meant revised) :
    Edit removed (.ifDocument members) (.ifDocument meant) (.ifDocument revised) := by
  have named : "If" ∈ variants := by decide
  have isBody : "body" ∉ variants := by decide
  have statements := Edit.array (.cons (.variant named (.record isRecord inside)) .nil)
  have block : Edit removed (.object [("body", .array [.tagged "If" (.object members)])])
      (.object [("body", .array [.tagged "If" (.object meant)])])
      (.object [("body", .array [.tagged "If" (.object revised)])]) := by
    apply Edit.record
    · exact isBody
    · exact .keep "body" statements (.nil _)
  apply Edit.record
  · exact isBody
  · exact .keep "body" block (.nil _)

/-- A document with an unknown member and without a null `else_body` is read as the program
that was written, and without a condition it is not read. -/
theorem documents_read_back_if :
    let condition : Condition := ⟨.symbol ⟨"a"⟩, .lt, .symbol ⟨"b"⟩⟩
    let block : Block := .cons (.assign ⟨⟨"x"⟩, .number "1"⟩) .nil
    Program.ofJson? (.ifDocument [("condition", condition.toJson), ("line", .natural 1),
        ("then_body", block.toJson)]) = some ⟨.cons (.branch (.last condition block)) .nil⟩ ∧
      Program.ofJson? (.ifDocument [("then_body", block.toJson), ("else_body", .null)]) = none := by
  intro condition block
  let program : Program := ⟨.cons (.branch (.ofParts condition block none)) .nil⟩
  have unknown : "line" ∉ Branch.fields := by decide
  have edited : EditMembers Edit Branch.fields 0 _ _ _ :=
    .keep "condition" (Edit.same condition.toJson) <| .add "line" (.natural 1) unknown <|
      .keep "then_body" (Edit.same block.toJson) <| .removeElse .null (.nil _)
  have unconditional : EditMembers Edit Branch.fields 1 _ _ _ :=
    .remove "condition" condition.toJson (by decide) <|
      .keep "then_body" (Edit.same block.toJson) <| .keep "else_body" (Edit.same .null) (.nil _)
  have shallow : program.toJson.nestsWithin nestingLimit = true := by
    rw [Program.toJson_if, Block.toJson_assign]
    decide
  obtain ⟨_, exact, _, strict, _⟩ := documents_read_back program ⟨.nestingTooDeep 0, {}⟩
  rw [if_pos shallow, Program.toJson_if] at exact
  rw [Program.toJson_if] at strict
  exact ⟨exact _ (edited.ifDocument id), strict 1 _ _ Nat.one_pos (unconditional.ifDocument id)⟩

/-- A sum with the given number of signs. -/
def Expr.sum (signs : Nat) : Expr :=
  Nat.repeat (fun left => .binary left .add (.symbol ⟨"a"⟩)) signs (.symbol ⟨"a"⟩)

/-- A sum of 62 operands nests too deep to be read back. And without its `else_body`, which is
not null, the document of an `if` with an `else` is still read, as an `if` without one. -/
theorem documents_not_read_back :
    let condition : Condition := ⟨.symbol ⟨"a"⟩, .lt, .symbol ⟨"b"⟩⟩
    let block : Block := .cons (.assign ⟨⟨"x"⟩, .number "1"⟩) .nil
    let next : Branch := .last condition block
    let fields := [("condition", condition.toJson), ("then_body", block.toJson)]
    let program (sum : Expr) : Program := ⟨.cons (.assign ⟨⟨"x"⟩, sum⟩) .nil⟩
    Program.ofJson? (program (.sum 60)).toJson = some (program (.sum 60)) ∧
      Program.ofJson? (program (.sum 61)).toJson = none ∧
      (Program.mk (.cons (.branch (.orElse condition block next)) .nil)).toJson =
        .ifDocument (fields ++ [("else_body", next.toJson)]) ∧
      next.toJson.isNull = false ∧
      Program.ofJson? (.ifDocument fields) =
        some ⟨.cons (.branch (.last condition block)) .nil⟩ := by
  intro condition block next fields program
  have document (sum : Expr) : (program sum).toJson = .object [("body", .object [("body",
      .array [.tagged "Assign" (Assign.toJson ⟨⟨"x"⟩, sum⟩)])])] := by
    rw [Program.toJson, Block.toJson_assign]
  have short : (program (.sum 60)).toJson.nestsWithin nestingLimit = true := by
    rw [document]
    decide +kernel
  have long : ¬ (program (.sum 61)).toJson.nestsWithin nestingLimit = true := by
    rw [document]
    decide +kernel
  have shortRead := (program (.sum 60)).readsBack.exact_entered nestingLimit (.same _)
  have longRead := (program (.sum 61)).readsBack.exact_entered nestingLimit (.same _)
  let shorter : Program := ⟨.cons (.branch (.ofParts condition block none)) .nil⟩
  have edited : EditMembers Edit Branch.fields 0 _ _ fields :=
    .keep "condition" (Edit.same condition.toJson) <|
      .keep "then_body" (Edit.same block.toJson) <| .removeElse .null (.nil _)
  have edit : Edit 0 shorter.toJson shorter.toJson (.ifDocument fields) := by
    rw [Program.toJson_if]
    exact edited.ifDocument id
  have shallow : shorter.toJson.nestsWithin nestingLimit = true := by
    rw [Program.toJson_if, Block.toJson_assign]
    decide
  have shorterRead := shorter.readsBack.exact_entered nestingLimit edit
  exact ⟨shortRead.trans (if_pos short), longRead.trans (if_neg long),
    Program.toJson_if condition block (some next), next.isNull_toJson,
    shorterRead.trans (if_pos shallow)⟩

end StartEnd
