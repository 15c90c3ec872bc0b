import StartEnd.Proofs.Document.Edit

/-!
# What is found of edited documents

A reader who enters only so many arrays and objects inside one another finds false in the place
of those that are nested deeper. So what is found of an edited document is an edit of what
was written, with the same meaning. Nothing more is lost by it exactly if what is meant is not
nested too deep. What is nested in added members is of no consequence.
-/

namespace StartEnd

namespace Json

/-- What is neither an array nor an object is found at any depth. -/
theorem entered_of_scalar {document : Json} (scalar : document.IsScalar) (levels : Nat) :
    document.entered levels = document := by
  cases document with
  | null | bool | number | string => cases levels <;> rfl
  | array | object => exact scalar.elim

/-- Nothing is nested in what is neither an array nor an object. -/
theorem nestsWithin_of_scalar {document : Json} (scalar : document.IsScalar) (levels : Nat) :
    document.nestsWithin levels = true := by
  cases document with
  | null | bool | number | string => cases levels <;> rfl
  | array | object => exact scalar.elim

/-- What is found of any edited document if so many arrays and objects are entered is an edit.
It loses nothing exactly if nothing was lost before and nothing is nested deeper in what is
meant. -/
def EditsEntered (levels : Nat) : Prop :=
  ∀ (removed : Nat) (document meant revised : Json), Edit removed document meant revised →
    ∃ lost, Edit lost document meant (revised.entered levels) ∧
      (lost = 0 ↔ removed = 0 ∧ meant.nestsWithin levels = true)

/-- Nothing is lost of two parts exactly if nothing is lost of either. -/
theorem nothing_lost_of_both {here behind removed others : Nat} {first rest : Bool}
    (nothingHere : here = 0 ↔ removed = 0 ∧ first = true)
    (nothingBehind : behind = 0 ↔ others = 0 ∧ rest = true) :
    here + behind = 0 ↔ removed + others = 0 ∧ (first && rest) = true := by
  rw [Nat.add_eq_zero_iff, Nat.add_eq_zero_iff, Bool.and_eq_true, nothingHere, nothingBehind,
    and_and_and_comm]

/-- What is found of edited items is an edit of them. -/
theorem EditItems.entered {levels : Nat} (entersEach : EditsEntered levels) {removed : Nat}
    {items meant revised : List Json} (edit : EditItems Edit removed items meant revised) :
    ∃ lost, EditItems Edit lost items meant (revised.map (Json.entered levels)) ∧
      (lost = 0 ↔ removed = 0 ∧ meant.all (nestsWithin levels) = true) := by
  induction edit with
  | nil => exact ⟨0, .nil, by simp⟩
  | cons first rest inductionHypothesis =>
    obtain ⟨here, firstEdit, nothingHere⟩ := entersEach _ _ _ _ first
    obtain ⟨behind, restEdit, nothingBehind⟩ := inductionHypothesis
    refine ⟨here + behind, .cons firstEdit restEdit, ?_⟩
    rw [List.all_cons]
    exact nothing_lost_of_both nothingHere nothingBehind

/-- What is found of edited members is an edit of them. -/
theorem EditMembers.entered {levels : Nat} (entersEach : EditsEntered levels)
    {keys : List String} {removed : Nat} {members meant revised : List (String × Json)}
    (edit : EditMembers Edit keys removed members meant revised) :
    ∃ lost, EditMembers Edit keys lost members meant
        (revised.map fun member => (member.1, member.2.entered levels)) ∧
      (lost = 0 ↔ removed = 0 ∧
        (meant.all fun member => nestsWithin levels member.2) = true) := by
  induction edit with
  | nil keys => exact ⟨0, .nil keys, by simp⟩
  | keep key here further inductionHypothesis =>
    obtain ⟨lost, hereEdit, nothingHere⟩ := entersEach _ _ _ _ here
    obtain ⟨behind, furtherEdit, nothingBehind⟩ := inductionHypothesis
    refine ⟨lost + behind, .keep key hereEdit furtherEdit, ?_⟩
    rw [List.all_cons]
    exact nothing_lost_of_both nothingHere nothingBehind
  | add key value unknown further inductionHypothesis =>
    obtain ⟨lost, furtherEdit, nothing⟩ := inductionHypothesis
    exact ⟨lost, .add key _ unknown furtherEdit, nothing⟩
  | remove key value needed further inductionHypothesis =>
    obtain ⟨lost, furtherEdit, _⟩ := inductionHypothesis
    refine ⟨1 + lost, .remove key value needed furtherEdit, ?_⟩
    constructor
    · intro zero
      omega
    · rintro ⟨zero, _⟩
      omega
  | removeElse value further inductionHypothesis =>
    obtain ⟨lost, furtherEdit, nothing⟩ := inductionHypothesis
    refine ⟨lost, .removeElse value furtherEdit, ?_⟩
    have isScalar : null.IsScalar := trivial
    rw [List.all_cons, nestsWithin_of_scalar isScalar, Bool.true_and]
    exact nothing

/-- What is found of an edited array is an edit of it. -/
theorem EditItems.entered_array {levels : Nat} (entersEach : EditsEntered levels) {removed : Nat}
    {items meant revised : List Json} (edit : EditItems Edit removed items meant revised) :
    ∃ lost, Edit lost (.array items) (.array meant) ((Json.array revised).entered (levels + 1)) ∧
      (lost = 0 ↔ removed = 0 ∧ (Json.array meant).nestsWithin (levels + 1) = true) := by
  obtain ⟨lost, itemsEdit, nothing⟩ := edit.entered entersEach
  exact ⟨lost, .array itemsEdit, nothing⟩

/-- What is found of an edited variant is an edit of it. -/
theorem Edit.entered_tagged {levels : Nat} (entersEach : EditsEntered levels) {tag : String}
    (named : tag ∈ variants) {removed : Nat} {content meant revised : Json}
    (edit : Edit removed content meant revised) :
    ∃ lost, Edit lost (tagged tag content) (tagged tag meant)
        ((tagged tag revised).entered (levels + 1)) ∧
      (lost = 0 ↔ removed = 0 ∧ (tagged tag meant).nestsWithin (levels + 1) = true) := by
  obtain ⟨lost, contentEdit, nothing⟩ := entersEach _ _ _ _ edit
  refine ⟨lost, .variant named contentEdit, ?_⟩
  simpa [tagged, nestsWithin] using nothing

/-- What is found of an edited record is an edit of it. -/
theorem EditMembers.entered_object {levels : Nat} (entersEach : EditsEntered levels)
    {removed : Nat} {members meant revised : List (String × Json)}
    (isRecord : ¬ NamesVariant members)
    (edit : EditMembers Edit (members.map Prod.fst) removed members meant revised) :
    ∃ lost, Edit lost (.object members) (.object meant)
        ((Json.object revised).entered (levels + 1)) ∧
      (lost = 0 ↔ removed = 0 ∧ (Json.object meant).nestsWithin (levels + 1) = true) := by
  obtain ⟨lost, membersEdit, nothing⟩ := edit.entered entersEach
  exact ⟨lost, .record isRecord membersEdit, nothing⟩

/-- What is found of a document that is neither an array nor an object is that document. -/
theorem Edit.entered_of_scalar {removed : Nat} {document meant revised : Json}
    (edit : Edit removed document meant revised) (scalar : document.IsScalar) (levels : Nat) :
    ∃ lost, Edit lost document meant (revised.entered levels) ∧
      (lost = 0 ↔ removed = 0 ∧ meant.nestsWithin levels = true) := by
  obtain ⟨rfl, rfl, rfl⟩ := edit.of_scalar scalar
  rw [Json.entered_of_scalar scalar]
  exact ⟨0, .same _, by simp [nestsWithin_of_scalar scalar]⟩

/-- Where nothing is entered, every array and every object is spoiled. -/
theorem editsEntered_zero : EditsEntered 0 := by
  intro removed document meant revised edit
  by_cases scalar : document.IsScalar
  · exact edit.entered_of_scalar scalar 0
  · have spoiled : revised.entered 0 = .bool false ∧
        ¬ (removed = 0 ∧ meant.nestsWithin 0 = true) := by
      cases edit with
      | same =>
        cases document with
        | null | bool | number | string => exact absurd trivial scalar
        | array | object => exact ⟨rfl, fun within => absurd within.2 (by simp [nestsWithin])⟩
      | array | variant | record =>
        exact ⟨rfl, fun within => absurd within.2 (by simp [nestsWithin, tagged])⟩
      | spoil => exact ⟨rfl, fun within => absurd within.1 (by decide)⟩
    rw [spoiled.1]
    exact ⟨1, .spoil meant scalar, by simpa using spoiled.2⟩

/-- What is found of an edited document if only so many arrays and objects are entered is an edit
of it. The induction is over those that are entered. -/
theorem editsEntered (levels : Nat) : EditsEntered levels := by
  induction levels with
  | zero => exact editsEntered_zero
  | succ levels inductionHypothesis =>
    intro removed document meant revised edit
    cases edit with
    | same =>
      cases document with
      | null | bool | number | string =>
        apply Edit.entered_of_scalar (.same _)
        exact trivial
      | array items => exact (EditItems.refl items).entered_array inductionHypothesis
      | object members =>
        by_cases isRecord : NamesVariant members
        · obtain ⟨tag, content, rfl⟩ : ∃ tag content, members = [(tag, content)] := by
            unfold NamesVariant at isRecord
            split at isRecord
            · exact ⟨_, _, rfl⟩
            · exact isRecord.elim
          exact (Edit.same content).entered_tagged inductionHypothesis isRecord
        · exact (EditMembers.refl _ members).entered_object inductionHypothesis isRecord
    | array inside => exact inside.entered_array inductionHypothesis
    | variant named inside => exact inside.entered_tagged inductionHypothesis named
    | record isRecord inside => exact inside.entered_object inductionHypothesis isRecord
    | spoil _ nested => exact ⟨1, .spoil meant nested, by simp⟩

end Json

end StartEnd
