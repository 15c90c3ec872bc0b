import Mathlib.Data.List.Nodup
import StartEnd.Proofs.Lexing.Munch

/-!
# The order of the patterns

Among patterns that take equally much from a text the earlier one is kept, so the order of the
table could matter. It does not: no two patterns of the language ever take equally much, unless
they take nothing. What they take stands at the front of the same text, so two matches of one
length are the same text. Two classes do not begin alike, no sign begins like a class, and no
two signs are spelled alike.

So the longest match is taken by one pattern alone, which wins in every order. A cursor that
reads by a rearranged table delivers the same items and moves in the same way.
-/

namespace StartEnd

namespace Pattern

/-- A pattern of a table takes something from a text, and no pattern of the table takes more. -/
structure Longest (table : List Pattern) (text : List Char) (pattern : Pattern) : Prop where
  present : pattern.taken text ≠ []
  most : ∀ other ∈ table, (other.taken text).length ≤ (pattern.taken text).length

/-- Two patterns that take equally much take the same. -/
theorem taken_eq_of_length_eq {first second : Pattern} {text : List Char}
    (same : (first.taken text).length = (second.taken text).length) :
    first.taken text = second.taken text := by
  have front : first.taken text <+: second.taken text :=
    List.prefix_of_prefix_length_le (taken_isPrefix first text) (taken_isPrefix second text)
      (Nat.le_of_eq same)
  exact front.eq_of_length same

/-- No two signs are spelled alike. -/
theorem sign_injective : ∀ kind ∈ signs, ∀ other ∈ signs,
    kind.characters = other.characters → kind = other := by
  decide

/-- Two patterns of the language that take the same text are the same pattern. -/
theorem eq_of_taken_eq {first second : Pattern} (listed : first ∈ all) (again : second ∈ all)
    {text : List Char} (present : first.taken text ≠ [])
    (same : first.taken text = second.taken text) : first = second := by
  cases text with
  | nil => exact absurd (List.prefix_nil.mp (taken_isPrefix first [])) present
  | cons character rest =>
    have alsoPresent : second.taken (character :: rest) ≠ [] := same ▸ present
    have opens : first.Opens character := opens_of_taken present
    have alsoOpens : second.Opens character := opens_of_taken alsoPresent
    rcases mem_all_iff.mp listed with isClass | ⟨kind, isSign, rfl⟩
    · rcases mem_all_iff.mp again with otherClass | ⟨other, otherSign, rfl⟩
      · exact eq_of_opens otherClass isClass alsoOpens opens
      · exact absurd opens (not_opens_of_sign otherSign alsoOpens isClass)
    · rcases mem_all_iff.mp again with otherClass | ⟨other, otherSign, rfl⟩
      · exact absurd alsoOpens (not_opens_of_sign isSign opens otherClass)
      · rw [(taken_sign present).1, (taken_sign alsoPresent).1] at same
        exact congrArg sign (sign_injective kind isSign other otherSign same)

/-- Two patterns of the language that take equally much, and something, are the same pattern. -/
theorem eq_of_length_eq {first second : Pattern} (listed : first ∈ all) (again : second ∈ all)
    {text : List Char} (present : first.taken text ≠ [])
    (same : (first.taken text).length = (second.taken text).length) : first = second :=
  eq_of_taken_eq listed again present (taken_eq_of_length_eq same)

/-- At most one entry of the table of the language takes the most. -/
theorem Longest.unique {text : List Char} {first second : Fin all.length}
    (longest : Longest all text all[first]) (again : Longest all text all[second]) :
    first = second := by
  have listed : all[first] ∈ all := List.getElem_mem first.isLt
  have alsoListed : all[second] ∈ all := List.getElem_mem second.isLt
  have same : all[first] = all[second] :=
    eq_of_length_eq listed alsoListed longest.present
      (Nat.le_antisymm (again.most _ listed) (longest.most _ alsoListed))
  have distinct : all.Nodup := by decide
  exact Fin.ext (distinct.getElem_inj_iff.mp same)

/-- Where no pattern of a table takes anything there is no longest match. -/
theorem longest?_eq_none {table : List Pattern} {text : List Char}
    (nothing : ∀ pattern ∈ table, pattern.taken text = []) : longest? table text = none := by
  rcases best : longest? table text with _ | ⟨pattern, found⟩
  · rfl
  · obtain ⟨listed, taken, present⟩ := longest?_eq_some best
    exact absurd (taken.trans (nothing pattern listed)) present

/-- The longest match is the same in every order of the table. -/
theorem longest?_perm {table : List Pattern} (permuted : table.Perm all) (text : List Char) :
    longest? table text = longest? all text := by
  rcases best : longest? all text with _ | ⟨pattern, found⟩
  · apply longest?_eq_none
    intro pattern listed
    by_contra present
    exact longest?_ne_none (permuted.mem_iff.mp listed) present best
  · obtain ⟨listed, taken, present⟩ := longest?_eq_some best
    apply longest?_of_dominant (permuted.mem_iff.mpr listed) taken.symm present
    intro other member different
    have otherListed : other ∈ all := permuted.mem_iff.mp member
    have bounded : (other.taken text).length ≤ found.length :=
      length_taken_le_of_longest best otherListed
    have unequal : (other.taken text).length ≠ found.length := by
      intro same
      rw [taken] at same present
      exact different (eq_of_length_eq listed otherListed present same.symm).symm
    exact Nat.lt_of_le_of_ne bounded unequal

end Pattern

namespace Cursor

variable {table : List Pattern}

/-- Looking at the text once does not depend on the order of the table. -/
theorem look_perm (permuted : table.Perm Pattern.all) (cursor : Cursor) :
    cursor.look table = cursor.look Pattern.all := by
  simp only [look, Pattern.longest?_perm permuted]

/-- The next item does not depend on the order of the table. -/
theorem nextBy_perm (permuted : table.Perm Pattern.all) (cursor : Cursor) :
    cursor.nextBy table = cursor.next := by
  simp only [next, nextBy, look_perm permuted]

/-- Reading a number of items does not depend on the order of the table. The induction is over
their number. -/
theorem drainWithin_perm (permuted : table.Perm Pattern.all) (count : Nat) (cursor : Cursor) :
    cursor.drainWithin table count = cursor.drainWithin Pattern.all count := by
  induction count generalizing cursor with
  | zero => rfl
  | succ count inductionHypothesis =>
    have same : cursor.nextBy table = cursor.nextBy Pattern.all := nextBy_perm permuted cursor
    simp only [drainWithin, same, inductionHypothesis]

/-- At most one entry of the table of the language takes the most from a text. So with the
table in any other order a cursor gives the same next item and moves in the same way, and
reading a source delivers the same tokens, with the same spans, and the same fault. -/
theorem drain_any_order :
    (∀ (text : List Char) (first second : Fin Pattern.all.length),
      Pattern.Longest Pattern.all text Pattern.all[first] →
      Pattern.Longest Pattern.all text Pattern.all[second] → first = second) ∧
    ∀ table : List Pattern, table.Perm Pattern.all →
      (∀ cursor : Cursor, cursor.nextBy table = cursor.next) ∧
      ∀ source : String, (start source).drainBy table = (start source).drain := by
  constructor
  · intro text first second longest again
    exact longest.unique again
  · intro table permuted
    constructor
    · exact nextBy_perm permuted
    · intro source
      exact drainWithin_perm permuted _ (start source)

/-- With the shorter signs in front of the longer ones, two equals signs are still one token: the
seventh entry behind the first is the only one that takes both. -/
theorem drain_any_order_equals :
    let doubled : Fin Pattern.all.length := ⟨7, by decide⟩
    Pattern.Longest Pattern.all "==1".toList Pattern.all[doubled] ∧
    (∀ entry : Fin Pattern.all.length,
      Pattern.Longest Pattern.all "==1".toList Pattern.all[entry] → entry = doubled) ∧
    Pattern.all.reverse.Perm Pattern.all ∧
    ((start "a==1").drainBy Pattern.all.reverse).1 = Source.items "a==1" := by
  intro doubled
  have longest : Pattern.Longest Pattern.all "==1".toList Pattern.all[doubled] :=
    ⟨by decide, by decide⟩
  have permuted : Pattern.all.reverse.Perm Pattern.all := List.reverse_perm Pattern.all
  obtain ⟨unique, reordered⟩ := drain_any_order
  refine ⟨longest, ?_, permuted, ?_⟩
  · intro entry again
    exact unique _ entry doubled again longest
  · obtain ⟨_, delivered⟩ := reordered Pattern.all.reverse permuted
    exact congrArg Prod.fst (delivered "a==1")

end Cursor

end StartEnd
