import StartEnd.Proofs.Document.Edit

/-!
# Readers of edited documents

A reader is faithful to a value when it reads every edit of its document: it gives the value
whose document is meant, or nothing if something is lost. Faithful readers of fields make a
faithful reader of the record, and the reader of a content makes one of the variant. So
the readers of trees and faults are faithful because they are put together in this way.
-/

namespace StartEnd

namespace Json

variable {α β δ : Type}

/-- What a reader gives when some fields are missing and something is meant by the others. -/
structure Given (write : α → δ) (value : α) (removed : Nat) (meant : δ) (result : Option α) :
    Prop where
  whole : removed = 0 → ∃ other, write other = meant ∧ (meant = write value → other = value) ∧
    result = some other
  missing : 0 < removed → result = none

/-- The reader is faithful to the value. -/
def ReadsBack (read : Json → Option α) (write : α → Json) (value : α) : Prop :=
  ∀ (removed : Nat) (meant revised : Json), Edit removed (write value) meant revised →
    Given write value removed meant (read revised)

/-- The reader of the members of records is faithful to the value. -/
def FieldsReadBack (read : List (String × Json) → Option α)
    (write : α → List (String × Json)) (value : α) : Prop :=
  ∀ (removed : Nat) (meant revised : List (String × Json)),
    FieldsFound revised (write value) removed meant → Given write value removed meant (read revised)

/-- No result is given where something is lost. -/
theorem Given.lost {value : α} {write : α → δ} {meant : δ} : Given write value 1 meant none :=
  ⟨fun zero => absurd zero (by decide), fun _ => rfl⟩

/-- Two results together are given when each of them is. -/
theorem Given.pair {ε : Type} {first : α} {second : β} {write : α → δ} {writeSecond : β → ε}
    {removed others : Nat} {meant : δ} {meantSecond : ε} {result : Option α}
    {resultSecond : Option β} (given : Given write first removed meant result)
    (givenSecond : Given writeSecond second others meantSecond resultSecond) :
    Given (Prod.map write writeSecond) (first, second) (removed + others) (meant, meantSecond)
      (result.bind fun one => resultSecond.bind fun two => some (one, two)) := by
  constructor
  · intro complete
    obtain ⟨one, isMeant, isFirst, found⟩ := given.whole (by omega)
    obtain ⟨two, isMeantSecond, isSecond, foundSecond⟩ := givenSecond.whole (by omega)
    refine ⟨(one, two), by simp [isMeant, isMeantSecond], ?_, by simp [found, foundSecond]⟩
    intro same
    obtain ⟨sameFirst, sameSecond⟩ := Prod.mk.inj same
    rw [isFirst sameFirst, isSecond sameSecond]
  · intro incomplete
    rcases Nat.eq_zero_or_pos removed with zero | positive
    · simp [givenSecond.missing (by omega)]
    · simp [given.missing positive]

/-- A result in another form is given, if the form can be told from what is written. -/
theorem Given.map {ε : Type} {value : α} {write : α → δ} {removed : Nat} {meant : δ}
    {result : Option α} (given : Given write value removed meant result) (form : α → β)
    {writeForm : β → ε} (writtenForm : δ → ε)
    (written : ∀ other, writeForm (form other) = writtenForm (write other))
    (injective : Function.Injective writtenForm) :
    Given writeForm (form value) removed (writtenForm meant) (result.map form) := by
  constructor
  · intro complete
    obtain ⟨other, isMeant, isValue, found⟩ := given.whole complete
    refine ⟨form other, by rw [written, isMeant], ?_, by rw [found]; rfl⟩
    intro same
    rw [written] at same
    rw [isValue (injective same)]
  · intro incomplete
    rw [given.missing incomplete]
    rfl

/-- A result is also given as part of something from which it can be told. -/
theorem Given.within {ε : Type} {value : α} {write : α → δ} {removed : Nat} {meant : δ}
    {result : Option α} (given : Given write value removed meant result) {around : δ → ε}
    (injective : Function.Injective around) :
    Given (fun other => around (write other)) value removed (around meant) result := by
  have mapped : Given (fun other => around (write other)) value removed (around meant)
      (result.map id) := given.map id around (fun _ => rfl) injective
  rwa [Option.map_id] at mapped

/-- A reader of scalars is faithful if it reads what is written. -/
theorem readsBack_scalar {read : Json → Option α} {write : α → Json} {value : α}
    (scalar : (write value).IsScalar) (found : read (write value) = some value) :
    ReadsBack read write value := by
  intro removed meant revised edit
  obtain ⟨rfl, rfl, rfl⟩ := edit.of_scalar scalar
  exact ⟨fun _ => ⟨value, rfl, fun _ => rfl, found⟩, fun positive => absurd positive (by decide)⟩

/-- The reader of texts is faithful. -/
theorem readsBack_text (value : String) : ReadsBack text? .string value := by
  apply readsBack_scalar
  · trivial
  · rfl

/-- The reader of no fields is faithful. -/
theorem fieldsReadBack_nil : FieldsReadBack (fun _ => some ()) (fun _ => []) () := by
  rintro removed meant revised ⟨rfl, rfl⟩
  exact ⟨fun _ => ⟨(), rfl, fun _ => rfl, rfl⟩, fun positive => absurd positive (by decide)⟩

/-- The reader of one more field is faithful. -/
theorem ReadsBack.field {read : Json → Option α} {write : α → Json} {first : α}
    (reads : ReadsBack read write first) (key : String) (needed : key ≠ "else_body")
    {readRest : List (String × Json) → Option β} {writeRest : β → List (String × Json)}
    {second : β} (rest : FieldsReadBack readRest writeRest second) :
    FieldsReadBack
      (fun members => ((lookup? key members).bind read).bind fun one =>
        (readRest members).bind fun two => some (one, two))
      (fun pair => (key, write pair.1) :: writeRest pair.2) (first, second) := by
  rintro removed meant revised ⟨lost, others, here, further, rfl, rfl, found, restFound⟩
  have given : Given write first lost here ((lookup? key revised).bind read) := by
    generalize lookup? key revised = stored at found
    cases found with
    | kept edit => exact reads _ _ _ edit
    | missing _ => exact .lost
    | missingElse isElse => exact absurd isElse needed
  have both := given.pair (rest _ _ _ restFound)
  have injective : Function.Injective
      fun pair : Json × List (String × Json) => (key, pair.1) :: pair.2 := by
    rintro ⟨_, _⟩ ⟨_, _⟩ same
    simpa using same
  exact both.within injective

/-- The reader of a record is faithful. -/
theorem FieldsReadBack.record {readFields : List (String × Json) → Option α}
    {writeFields : α → List (String × Json)} {value : α}
    (fields : FieldsReadBack readFields writeFields value) {read : Json → Option β}
    {write : β → Json} (form : α → β)
    (isRecord : ¬ NamesVariant (writeFields value))
    (distinct : ((writeFields value).map Prod.fst).Nodup)
    (written : ∀ other, write (form other) = .object (writeFields other))
    (refuses : read (.bool false) = none)
    (readsFields : ∀ members, read (.object members) = (readFields members).map form) :
    ReadsBack read write (form value) := by
  intro removed meant revised edit
  rw [written] at edit
  rcases edit.of_record isRecord distinct with ⟨meantMembers, members, rfl, rfl, found⟩ | ⟨rfl, rfl⟩
  · rw [readsFields]
    exact (fields _ _ _ found).map form Json.object written fun _ _ same => Json.object.inj same
  · rw [refuses]
    exact .lost

/-- The reader of a variant is faithful. -/
theorem ReadsBack.variant {readContent : Json → Option α} {writeContent : α → Json} {value : α}
    (content : ReadsBack readContent writeContent value) {tag : String} (named : tag ∈ variants)
    {read : Json → Option β} {write : β → Json} (form : α → β)
    (written : ∀ other, write (form other) = tagged tag (writeContent other))
    (refuses : read (.bool false) = none)
    (readsContent : ∀ document, read (tagged tag document) = (readContent document).map form) :
    ReadsBack read write (form value) := by
  intro removed meant revised edit
  rw [written] at edit
  rcases edit.of_tagged named with ⟨meantContent, revisedContent, rfl, rfl, inside⟩ | ⟨rfl, rfl⟩
  · rw [readsContent]
    refine (content _ _ _ inside).map form (tagged tag) written fun first second same => ?_
    simpa [tagged] using same
  · rw [refuses]
    exact .lost

/-- The reader of a variant that holds a record is faithful. -/
theorem FieldsReadBack.variant {readFields : List (String × Json) → Option α}
    {writeFields : α → List (String × Json)} {value : α}
    (fields : FieldsReadBack readFields writeFields value) {tag : String}
    (named : tag ∈ variants) {read : Json → Option β} {write : β → Json} (form : α → β)
    (isRecord : ¬ NamesVariant (writeFields value))
    (distinct : ((writeFields value).map Prod.fst).Nodup)
    (written : ∀ other, write (form other) = tagged tag (.object (writeFields other)))
    (refuses : read (.bool false) = none) (refusesContent : read (tagged tag (.bool false)) = none)
    (readsFields : ∀ members, read (tagged tag (.object members)) = (readFields members).map form) :
    ReadsBack read write (form value) := by
  intro removed meant revised edit
  rw [written] at edit
  rcases edit.of_tagged named with ⟨_, _, rfl, rfl, inside⟩ | ⟨rfl, rfl⟩
  · rcases inside.of_record isRecord distinct with
      ⟨meantMembers, members, rfl, rfl, found⟩ | ⟨rfl, rfl⟩
    · rw [readsFields]
      refine (fields _ _ _ found).map form (fun members => tagged tag (.object members)) written ?_
      intro first second same
      simpa [tagged] using same
    · rw [refusesContent]
      exact .lost
  · rw [refuses]
    exact .lost

/-- The first item and the others can be told from a list. -/
theorem cons_injective : Function.Injective fun pair : α × List α => pair.1 :: pair.2 := by
  rintro ⟨_, _⟩ ⟨_, _⟩ same
  simpa using same

/-- The reader of the items of an array is faithful if the reader of each item is. -/
theorem ReadsBack.items {read : Json → Option α} {write : α → Json} {values : List α}
    (reads : ∀ value ∈ values, ReadsBack read write value) {removed : Nat}
    {meant revised : List Json} (edit : EditItems Edit removed (values.map write) meant revised) :
    Given (List.map write) values removed meant (readAll read revised) := by
  induction values generalizing removed meant revised with
  | nil =>
    cases edit
    exact ⟨fun _ => ⟨[], rfl, fun _ => rfl, rfl⟩, fun positive => absurd positive (by decide)⟩
  | cons first rest inductionHypothesis =>
    obtain ⟨readsFirst, readsRest⟩ := List.forall_mem_cons.mp reads
    cases edit with
    | cons here further =>
      have both := (readsFirst _ _ _ here).pair (inductionHypothesis readsRest further)
      have listed := both.map (fun pair => pair.1 :: pair.2) (fun pair => pair.1 :: pair.2)
        (fun _ => List.map_cons) cons_injective
      simpa [readAll, Option.map_bind] using listed

/-- The reader of an array is faithful if the reader of each item is. -/
theorem readsBack_array {read : Json → Option α} {write : α → Json} {values : List α}
    (reads : ∀ value ∈ values, ReadsBack read write value) :
    ReadsBack (fun document => do readAll read (← document.items?).1)
      (fun values => Json.array (values.map write)) values := by
  intro removed meant revised edit
  rcases edit.of_array with ⟨meantItems, items, rfl, rfl, inside⟩ | ⟨rfl, rfl⟩
  · exact (ReadsBack.items reads inside).within fun _ _ same => Json.array.inj same
  · exact .lost

end Json

end StartEnd
