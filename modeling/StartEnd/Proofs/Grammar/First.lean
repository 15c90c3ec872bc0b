import Mathlib.Data.List.ProdSigma
import StartEnd.Grammar.First
import StartEnd.Proofs.Grammar.Derivation

/-!
# The kinds that begin a phrase are found exactly

A phrase leads to a kind through the leading symbols of productions, however many of them
stand in between. A scan publishes only kinds to which a phrase leads, and a scan that adds
nothing has found all of them. Each other scan adds one of finitely many pairs, so the scans
come to an end of themselves: the bound on their number in the definition cuts nothing off.
What a phrase leads to does not depend on how the productions are listed, so neither does what
is found.

Where no body is empty and every phrase stands for some kinds, a phrase leads to the kinds
that begin what is derived from it, and to no others. Both hold of the language.
-/

namespace StartEnd

open ContextFreeGrammar (Letter)

namespace First

/-- A phrase leads to a kind if one of its productions begins with the kind, or with a phrase
that leads to it. -/
inductive Leads (listing : List Production) : Nonterminal → Token.Kind → Prop where
  | terminal {phrase : Nonterminal} {kind : Token.Kind} {others : List Symbol}
      (listed : ⟨phrase, .terminal kind :: others⟩ ∈ listing) : Leads listing phrase kind
  | nonterminal {phrase inner : Nonterminal} {kind : Token.Kind} {others : List Symbol}
      (listed : ⟨phrase, .nonterminal inner :: others⟩ ∈ listing)
      (further : Leads listing inner kind) : Leads listing phrase kind

/-- Scanning again and again until a scan adds nothing, however many scans it takes. -/
inductive ScansTo (listing : List Production) : List Fact → List Fact → Prop where
  | unchanged {facts : List Fact} (same : scan listing facts = facts) : ScansTo listing facts facts
  | again {facts last : List Fact} (changed : scan listing facts ≠ facts)
      (further : ScansTo listing (scan listing facts) last) : ScansTo listing facts last

variable {listing other : List Production} {facts more : List Fact} {fact : Fact}
  {production : Production} {phrase : Nonterminal} {kind : Token.Kind}

/-- With more productions a phrase leads to more kinds. -/
theorem Leads.mono (leads : Leads listing phrase kind) (others : listing ⊆ other) :
    Leads other phrase kind := by
  induction leads with
  | terminal listed => exact .terminal (others listed)
  | nonterminal listed further inductionHypothesis =>
    exact .nonterminal (others listed) inductionHypothesis

/-! ## What a scan publishes -/

/-- Publishes kinds of one phrase. -/
def publishAll (facts : List Fact) (phrase : Nonterminal) (kinds : List Token.Kind) : List Fact :=
  kinds.foldl (fun current kind => publish current (phrase, kind)) facts

/-- A step publishes the kinds that the production shows about its head. -/
theorem step_eq (facts : List Fact) (production : Production) :
    step facts production =
      publishAll facts production.head (leading facts production.body) := rfl

/-- The known kinds of a phrase are those of the facts about it. -/
@[simp] theorem mem_known_iff : kind ∈ known facts phrase ↔ (phrase, kind) ∈ facts := by
  simp [known]

/-- Kinds are read off facts in their order. -/
theorem known_increasing (facts : List Fact) (phrase : Nonterminal) :
    (known facts phrase).Pairwise fun left right => left.rank < right.rank :=
  Token.Kind.all_increasing.filter _

/-- Publishing adds the fact and nothing else. -/
theorem mem_publish_iff {new : Fact} : fact ∈ publish facts new ↔ fact ∈ facts ∨ fact = new := by
  unfold publish
  split
  case isTrue present =>
    constructor
    · exact Or.inl
    · rintro (known | rfl)
      · exact known
      · exact present
  case isFalse _ =>
    rw [List.mem_cons, or_comm]

/-- Publishing adds the facts about the kinds and nothing else. -/
theorem mem_publishAll_iff {kinds : List Token.Kind} :
    fact ∈ publishAll facts phrase kinds ↔ fact ∈ facts ∨ fact.1 = phrase ∧ fact.2 ∈ kinds := by
  unfold publishAll
  induction kinds generalizing facts with
  | nil => simp
  | cons kind kinds inductionHypothesis =>
    rw [List.foldl_cons, inductionHypothesis, mem_publish_iff, List.mem_cons, Prod.ext_iff]
    tauto

/-- A step adds what the production shows about its head, and nothing else. -/
theorem mem_step_iff : fact ∈ step facts production ↔
    fact ∈ facts ∨ fact.1 = production.head ∧ fact.2 ∈ leading facts production.body := by
  rw [step_eq, mem_publishAll_iff]

/-- Publishing adds in front. -/
theorem suffix_publish (facts : List Fact) (new : Fact) : facts <:+ publish facts new := by
  unfold publish
  split
  · exact List.suffix_rfl
  · exact List.suffix_cons new facts

/-- Publishing several facts adds in front. -/
theorem suffix_publishAll (facts : List Fact) (phrase : Nonterminal) (kinds : List Token.Kind) :
    facts <:+ publishAll facts phrase kinds := by
  unfold publishAll
  induction kinds generalizing facts with
  | nil => exact List.suffix_rfl
  | cons kind kinds inductionHypothesis =>
    exact (suffix_publish facts (phrase, kind)).trans (inductionHypothesis _)

/-- A scan adds in front. -/
theorem suffix_scan (listing : List Production) (facts : List Fact) :
    facts <:+ scan listing facts := by
  unfold scan
  induction listing generalizing facts with
  | nil => exact List.suffix_rfl
  | cons production others inductionHypothesis =>
    exact (suffix_publishAll facts _ _).trans (inductionHypothesis (step facts production))

/-- Publishing repeats nothing. -/
theorem nodup_publish (distinct : facts.Nodup) (new : Fact) : (publish facts new).Nodup := by
  unfold publish
  split
  case isTrue _ => exact distinct
  case isFalse absent => exact List.nodup_cons.mpr ⟨absent, distinct⟩

/-- Publishing several facts repeats nothing. -/
theorem nodup_publishAll (distinct : facts.Nodup) (phrase : Nonterminal)
    (kinds : List Token.Kind) : (publishAll facts phrase kinds).Nodup := by
  unfold publishAll
  induction kinds generalizing facts with
  | nil => exact distinct
  | cons kind kinds inductionHypothesis =>
    exact inductionHypothesis (nodup_publish distinct (phrase, kind))

/-- A scan repeats nothing. -/
theorem nodup_scan (distinct : facts.Nodup) (listing : List Production) :
    (scan listing facts).Nodup := by
  unfold scan
  induction listing generalizing facts with
  | nil => exact distinct
  | cons production others inductionHypothesis =>
    exact inductionHypothesis (nodup_publishAll distinct _ _)

/-! ## Nothing spurious is added -/

/-- Every fact pairs a phrase with a kind to which it leads. -/
def Sound (listing : List Production) (facts : List Fact) : Prop :=
  ∀ fact ∈ facts, Leads listing fact.1 fact.2

/-- What a listed production shows about its head is so. -/
theorem Sound.leads_of_leading (sound : Sound listing facts) (listed : production ∈ listing)
    (shown : kind ∈ leading facts production.body) : Leads listing production.head kind := by
  obtain ⟨head, body⟩ := production
  rcases body with _ | ⟨⟨own⟩ | ⟨inner⟩, others⟩
  · exact absurd shown List.not_mem_nil
  · obtain rfl : kind = own := List.mem_singleton.mp shown
    exact .terminal listed
  · have fact : (inner, kind) ∈ facts := mem_known_iff.mp shown
    exact .nonterminal listed (sound _ fact)

/-- A step keeps facts sound. -/
theorem Sound.step (sound : Sound listing facts) (listed : production ∈ listing) :
    Sound listing (step facts production) := by
  intro fact present
  rcases mem_step_iff.mp present with known | ⟨isHead, shown⟩
  · exact sound fact known
  · rw [isHead]
    exact sound.leads_of_leading listed shown

/-- A scan keeps facts sound. The induction is over the productions that are visited. -/
theorem Sound.scan (sound : Sound listing facts) : Sound listing (scan listing facts) := by
  have visit : ∀ visited ⊆ listing, ∀ current, Sound listing current →
      Sound listing (visited.foldl First.step current) := by
    intro visited
    induction visited with
    | nil => exact fun _ current holds => holds
    | cons production others inductionHypothesis =>
      intro inside current holds
      obtain ⟨listed, rest⟩ := List.cons_subset.mp inside
      exact inductionHypothesis rest _ (holds.step listed)
  exact visit listing (List.Subset.refl listing) facts sound

/-! ## Nothing is missing -/

/-- More facts show more. -/
theorem leading_mono (known : facts ⊆ more) {body : List Symbol}
    (shown : kind ∈ leading facts body) : kind ∈ leading more body := by
  rcases body with _ | ⟨⟨own⟩ | ⟨inner⟩, others⟩
  · exact shown
  · exact shown
  · exact mem_known_iff.mpr (known (mem_known_iff.mp shown))

/-- What a listed production shows at the start of a scan is there at its end. The induction
is over the productions: those in front only add to what is shown. -/
theorem mem_scan_of_leading (listed : production ∈ listing)
    (shown : kind ∈ leading facts production.body) :
    (production.head, kind) ∈ scan listing facts := by
  induction listing generalizing facts with
  | nil => exact absurd listed List.not_mem_nil
  | cons first others inductionHypothesis =>
    rcases List.mem_cons.mp listed with rfl | later
    · have published : (production.head, kind) ∈ step facts production :=
        mem_step_iff.mpr (Or.inr ⟨rfl, shown⟩)
      exact (suffix_scan others (step facts production)).subset published
    · have kept : facts ⊆ step facts first := (suffix_publishAll facts _ _).subset
      exact inductionHypothesis later (leading_mono kept shown)

/-- Facts to which a scan adds nothing are complete. The induction is over the leading
symbols. -/
theorem mem_of_leads (same : scan listing facts = facts) (leads : Leads listing phrase kind) :
    (phrase, kind) ∈ facts := by
  induction leads with
  | @terminal phrase kind _ listed =>
    have published : (phrase, kind) ∈ scan listing facts :=
      mem_scan_of_leading listed List.mem_cons_self
    rwa [same] at published
  | nonterminal listed further inductionHypothesis =>
    have shown := mem_known_iff.mpr inductionHypothesis
    have published := mem_scan_of_leading listed shown
    rwa [same] at published

/-! ## The scans come to an end -/

/-- A scan that adds no fact changes nothing. -/
theorem scan_eq_of_length (same : (scan listing facts).length = facts.length) :
    scan listing facts = facts :=
  ((suffix_scan listing facts).eq_of_length same.symm).symm

/-- There are no more facts than pairs of a phrase and a kind. -/
theorem length_le_pairs (distinct : facts.Nodup) :
    facts.length ≤ Nonterminal.all.length * Token.Kind.all.length := by
  have covered : facts ⊆ Nonterminal.all.product Token.Kind.all := by
    intro fact _
    exact List.mem_product.mpr ⟨fact.1.mem_all, fact.2.mem_all⟩
  rw [← List.length_product]
  exact (List.subperm_of_subset distinct covered).length_le

/-- With more scans than pairs are missing, the bound on their number is not met. Each scan
but the last adds a pair. -/
theorem saturate_scansTo (scans : Nat) (distinct : facts.Nodup)
    (enough : Nonterminal.all.length * Token.Kind.all.length < facts.length + scans) :
    ScansTo listing facts (saturate listing scans facts) := by
  induction scans generalizing facts with
  | zero =>
    have bounded := length_le_pairs distinct
    omega
  | succ scans inductionHypothesis =>
    by_cases unchanged : (scan listing facts).length = facts.length
    · have same := scan_eq_of_length unchanged
      simpa [saturate, unchanged] using ScansTo.unchanged same
    · have grown : facts.length < (scan listing facts).length :=
        Nat.lt_of_le_of_ne (suffix_scan listing facts).length_le (Ne.symm unchanged)
      have changed : scan listing facts ≠ facts := fun same => unchanged (congrArg _ same)
      have further := inductionHypothesis (nodup_scan distinct listing) (by omega)
      simpa [saturate, unchanged] using ScansTo.again changed further

/-- The scans that start without any fact end with all facts. -/
theorem scansTo_facts (listing : List Production) : ScansTo listing [] (First.facts listing) := by
  apply saturate_scansTo _ List.nodup_nil
  rw [List.length_nil]
  omega

/-- Where scans end, nothing is added any more. -/
theorem ScansTo.unchanged_last {last : List Fact} (scans : ScansTo listing facts last) :
    scan listing last = last := by
  induction scans with
  | unchanged same => exact same
  | again changed further inductionHypothesis => exact inductionHypothesis

/-- Scans keep facts sound. -/
theorem ScansTo.sound {last : List Fact} (scans : ScansTo listing facts last)
    (sound : Sound listing facts) : Sound listing last := by
  induction scans with
  | unchanged same => exact sound
  | again changed further inductionHypothesis => exact inductionHypothesis sound.scan

/-- The kinds that are found for a phrase are those to which it leads. -/
theorem mem_set_iff : kind ∈ set listing phrase ↔ Leads listing phrase kind := by
  have scans := scansTo_facts listing
  constructor
  · intro found
    have sound : Sound listing (First.facts listing) :=
      scans.sound fun _ absent => absurd absent List.not_mem_nil
    exact sound _ (mem_known_iff.mp found)
  · intro leads
    exact mem_known_iff.mpr (mem_of_leads scans.unchanged_last leads)

/-- What is found depends only on which productions there are. -/
theorem set_congr (same : ∀ production, production ∈ other ↔ production ∈ listing)
    (phrase : Nonterminal) : set other phrase = set listing phrase := by
  unfold set known
  apply List.filter_congr
  intro kind _
  have alike : Leads other phrase kind ↔ Leads listing phrase kind :=
    ⟨fun leads => leads.mono fun _ listed => (same _).mp listed,
      fun leads => leads.mono fun _ listed => (same _).mpr listed⟩
  have facts : (phrase, kind) ∈ First.facts other ↔ (phrase, kind) ∈ First.facts listing := by
    rw [← mem_known_iff, ← mem_known_iff]
    exact mem_set_iff.trans (alike.trans mem_set_iff.symm)
  exact decide_eq_decide.mpr facts

/-! ## What begins the derived texts -/

/-- The first letter is the kind, or a phrase that leads to it. -/
def FirstLeads (listing : List Production) (kind : Token.Kind) :
    List (Letter Token.Kind Nonterminal) → Prop
  | [] => False
  | .terminal own :: _ => own = kind
  | .nonterminal phrase :: _ => Leads listing phrase kind

end First

/-- The context-free grammar of some productions, with the phrase to start from. -/
abbrev Production.grammar (listing : List Production) (phrase : Nonterminal) :
    ContextFreeGrammar Token.Kind where
  NT := Nonterminal
  initial := phrase
  rules := (listing.map Production.contextFree).toFinset

section Derivations

variable {listing : List Production} {start phrase : Nonterminal} {kind : Token.Kind}

/-- A listed production replaces its head. -/
theorem Production.produces (start : Nonterminal) {production : Production}
    (listed : production ∈ listing) :
    (Production.grammar listing start).Produces [.nonterminal production.head]
      (production.body.map Symbol.letter) :=
  ⟨production.contextFree, List.mem_toFinset.mpr (List.mem_map_of_mem listed),
    ContextFreeRule.Rewrites.input_output⟩

/-- Where no body is empty, a step backwards keeps that the first letter leads to a kind. -/
theorem First.FirstLeads.of_produces (filled : ∀ production ∈ listing, production.body ≠ [])
    {before after : List (Letter Token.Kind Nonterminal)}
    (produces : (Production.grammar listing start).Produces before after)
    (leads : FirstLeads listing kind after) : FirstLeads listing kind before := by
  obtain ⟨rule, isRule, rewrites⟩ := produces
  obtain ⟨production, listed, rfl⟩ := List.mem_map.mp (List.mem_toFinset.mp isRule)
  cases rewrites with
  | head behind =>
    obtain ⟨head, body⟩ := production
    rcases body with _ | ⟨⟨own⟩ | ⟨inner⟩, others⟩
    · exact absurd rfl (filled _ listed)
    · obtain rfl : own = kind := leads
      exact Leads.terminal listed
    · exact Leads.nonterminal listed leads
  | cons letter further =>
    cases letter with
    | terminal own => exact leads
    | nonterminal inner => exact leads

/-- A phrase leads to the kind that begins what is derived from it. The induction is over the
derivation, from its end backwards. -/
theorem First.leads_of_derives (filled : ∀ production ∈ listing, production.body ≠ [])
    {letters : List (Letter Token.Kind Nonterminal)}
    (derives : (Production.grammar listing start).Derives [.nonterminal phrase]
      (.terminal kind :: letters)) : Leads listing phrase kind := by
  have backwards : ∀ before, (Production.grammar listing start).Derives before
      (.terminal kind :: letters) → FirstLeads listing kind before := by
    intro before derives
    induction derives using Relation.ReflTransGen.head_induction_on with
    | refl => rfl
    | head produces rest inductionHypothesis =>
      exact FirstLeads.of_produces filled produces inductionHypothesis
  exact backwards _ derives

/-- A phrase that leads to a kind derives something that begins with it. -/
theorem First.Leads.derives (start : Nonterminal) (leads : Leads listing phrase kind) :
    ∃ letters, (Production.grammar listing start).Derives [.nonterminal phrase]
      (.terminal kind :: letters) := by
  induction leads with
  | terminal listed =>
    exact ⟨_, (Production.produces start listed).single⟩
  | nonterminal listed further inductionHypothesis =>
    obtain ⟨letters, derives⟩ := inductionHypothesis
    have first := (Production.produces start listed).single
    exact ⟨letters ++ _, first.trans (derives.append_right _)⟩

/-- Letters stand for some kinds if each phrase among them does. -/
theorem exists_kinds_of_forall {letters : List (Letter Token.Kind Nonterminal)}
    (each : ∀ inner, .nonterminal inner ∈ letters → ∃ kinds : List Token.Kind,
      (Production.grammar listing start).Derives [.nonterminal inner] (kinds.map .terminal)) :
    ∃ kinds : List Token.Kind,
      (Production.grammar listing start).Derives letters (kinds.map .terminal) := by
  induction letters with
  | nil => exact ⟨[], Relation.ReflTransGen.refl⟩
  | cons letter letters inductionHypothesis =>
    have single : ∃ kinds : List Token.Kind,
        (Production.grammar listing start).Derives [letter] (kinds.map .terminal) := by
      cases letter with
      | terminal own => exact ⟨[own], Relation.ReflTransGen.refl⟩
      | nonterminal inner => exact each inner List.mem_cons_self
    obtain ⟨front, early⟩ := single
    obtain ⟨back, late⟩ := inductionHypothesis fun inner inside =>
      each inner (List.mem_cons_of_mem letter inside)
    refine ⟨front ++ back, ?_⟩
    rw [List.map_append]
    exact (early.append_right letters).trans (late.append_left _)

/-! ## The language -/

/-- A production whose body has only phrases of lower rank. -/
def Nonterminal.simplest : Nonterminal → Rule
  | .program => .program
  | .body => .bodySingle
  | .concept => .conceptAssign
  | .assign => .assign
  | .id => .id
  | .expr => .exprTerm
  | .term => .termFactor
  | .factor => .factorExp
  | .exp => .expId
  | .digit => .digit
  | .branch => .branchThen
  | .condition => .condition
  | .op => .opLt
  | .repetition => .repetition
  | .data => .dataInt
  | .step => .stepAssign
  | .declaration => .declaration
  | .functionDecl => .functionDecl
  | .name => .name
  | .dataType => .dataType
  | .parameter => .parameterLast
  | .functionCall => .functionCall

/-- How many productions stand at most between a phrase and its tokens. -/
def Nonterminal.rank : Nonterminal → Nat
  | .id | .digit | .op | .data => 0
  | .exp | .name | .dataType | .parameter => 1
  | .factor | .functionCall => 2
  | .term => 3
  | .expr => 4
  | .assign | .condition => 5
  | .concept | .step | .declaration => 6
  | .body => 7
  | .program | .branch | .repetition | .functionDecl => 8

/-- The simplest production of a phrase is one of its own. -/
theorem Nonterminal.simplest_head (phrase : Nonterminal) :
    phrase.simplest.production.head = phrase := by
  cases phrase <;> rfl

/-- The simplest production of a phrase leads to phrases of lower rank. -/
theorem Nonterminal.rank_lt_of_mem {phrase other : Nonterminal}
    (inside : .nonterminal other ∈ phrase.simplest.production.body) : other.rank < phrase.rank := by
  have lower : ∀ phrase ∈ Nonterminal.all, ∀ other ∈ Nonterminal.all,
      .nonterminal other ∈ phrase.simplest.production.body → other.rank < phrase.rank := by
    decide
  exact lower phrase phrase.mem_all other other.mem_all inside

/-- With the productions of the language, and maybe others, every phrase stands for some
kinds. The induction is over the rank of the phrase. -/
theorem exists_kinds_nonterminal (complete : Rule.all.map Rule.production ⊆ listing)
    (phrase : Nonterminal) : ∃ kinds : List Token.Kind,
      (Production.grammar listing start).Derives [.nonterminal phrase] (kinds.map .terminal) := by
  induction height : phrase.rank using Nat.strong_induction_on generalizing phrase with
  | _ height' inductionHypothesis =>
    subst height
    have inner : ∃ kinds : List Token.Kind, (Production.grammar listing start).Derives
        (phrase.simplest.production.body.map Symbol.letter) (kinds.map .terminal) := by
      apply exists_kinds_of_forall
      intro other inside
      obtain ⟨symbol, isSymbol, same⟩ := List.mem_map.mp inside
      obtain rfl := letter_eq_nonterminal_iff.mp same
      exact inductionHypothesis _ (Nonterminal.rank_lt_of_mem isSymbol) other rfl
    obtain ⟨kinds, derives⟩ := inner
    have listed : phrase.simplest.production ∈ listing :=
      complete (List.mem_map_of_mem phrase.simplest.mem_all)
    have produces := Production.produces start listed
    rw [phrase.simplest_head] at produces
    exact ⟨kinds, produces.trans_derives derives⟩

/-- With the productions of the language, and maybe others, letters stand for some kinds. -/
theorem exists_kinds (start : Nonterminal) (complete : Rule.all.map Rule.production ⊆ listing)
    (letters : List (Letter Token.Kind Nonterminal)) : ∃ kinds : List Token.Kind,
      (Production.grammar listing start).Derives letters (kinds.map .terminal) :=
  exists_kinds_of_forall fun inner _ => exists_kinds_nonterminal complete inner

/-- With the productions of the language, and maybe others, a phrase that leads to a kind
stands for kinds of which it is the first. -/
theorem First.Leads.begins (start : Nonterminal)
    (complete : Rule.all.map Rule.production ⊆ listing)
    (leads : Leads listing phrase kind) : ∃ kinds : List Token.Kind,
      (Production.grammar listing start).Derives [.nonterminal phrase]
        ((kind :: kinds).map .terminal) := by
  obtain ⟨letters, front⟩ := leads.derives start
  obtain ⟨kinds, back⟩ := exists_kinds start complete letters
  exact ⟨kinds, front.trans (back.append_left [.terminal kind])⟩

end Derivations

/-- The kinds that are listed for a phrase of the language are found from its productions. -/
theorem Nonterminal.first_eq_set (phrase : Nonterminal) :
    phrase.first = First.set (Rule.all.map Rule.production) phrase := rfl

/-- For every list of productions the scans come to an end, and then the kinds that are found
for a phrase are those to which it leads, in their order. The order of the productions and
their repetition make no difference. For the language these are the kinds that begin what is
derived from the phrase. -/
theorem First.set_exact :
    (∀ listing : List Production, ScansTo listing [] (First.facts listing) ∧
      ∀ phrase : Nonterminal,
        (∀ kind, kind ∈ set listing phrase ↔ Leads listing phrase kind) ∧
        (set listing phrase).Pairwise (fun left right => left.rank < right.rank) ∧
        ∀ other : List Production, (∀ production, production ∈ other ↔ production ∈ listing) →
          set other phrase = set listing phrase) ∧
    ∀ (phrase : Nonterminal) (kind : Token.Kind), kind ∈ phrase.first ↔
      ∃ kinds : List Token.Kind,
        kind :: kinds ∈ (Production.grammar (Rule.all.map Rule.production) phrase).language := by
  constructor
  · intro listing
    refine ⟨scansTo_facts listing, fun phrase => ⟨fun kind => mem_set_iff, ?_, ?_⟩⟩
    · exact known_increasing (First.facts listing) phrase
    · exact fun other same => set_congr same phrase
  · intro phrase kind
    rw [phrase.first_eq_set, mem_set_iff]
    constructor
    · intro leads
      exact leads.begins phrase (List.Subset.refl _)
    · rintro ⟨kinds, derives⟩
      have filled : ∀ production ∈ Rule.all.map Rule.production, production.body ≠ [] := by
        intro production listed
        obtain ⟨rule, _, rfl⟩ := List.mem_map.mp listed
        exact rule.body_ne_nil
      exact leads_of_derives filled derives

/-- Sums that begin with sums, operands and calls that begin with each other, and a phrase that
only begins with itself. Listed backwards and once more, the productions show the same. -/
theorem First.set_exact_cycles :
    let listing : List Production :=
      [⟨.expr, [.nonterminal .expr, .terminal .plus, .nonterminal .exp]⟩,
        ⟨.expr, [.nonterminal .exp]⟩,
        ⟨.exp, [.nonterminal .functionCall]⟩,
        ⟨.functionCall, [.nonterminal .exp, .terminal .openParen, .terminal .closeParen]⟩,
        ⟨.functionCall, [.terminal .identifier]⟩,
        ⟨.exp, [.terminal .number]⟩,
        ⟨.body, [.nonterminal .body, .nonterminal .expr]⟩]
    let again : List Production := listing.reverse ++ listing
    (∀ production, production ∈ again ↔ production ∈ listing) ∧
    set again .expr = set listing .expr ∧ set listing .expr = [.number, .identifier] ∧
    set again .body = set listing .body ∧ set listing .body = [] := by
  intro listing again
  have same : ∀ production, production ∈ again ↔ production ∈ listing := by
    intro production
    rw [List.mem_append, List.mem_reverse, or_self]
  obtain ⟨_, exact⟩ := set_exact.1 listing
  obtain ⟨_, _, sums⟩ := exact .expr
  obtain ⟨_, _, bodies⟩ := exact .body
  exact ⟨same, sums again same, by decide +kernel, bodies again same, by decide +kernel⟩

end StartEnd
